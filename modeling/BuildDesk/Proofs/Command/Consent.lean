/-
A build is stopped with consent.

Before a build of a job is stopped the server is asked for the last build of the job, which has to
be running, and then the user is asked whether to stop it.  Only when the answer is yes a request
to stop that build follows:

* `Consent` — the question and the answer by which a build may be stopped;
* `Moment.Stopping`, `Moment.Free` — the kind allows builds to be stopped with consent, and to be
  queued;
* `courses_runningBuild`, `Asked`, `courses_question` — the question;
* `courses_settle`, `courses_cancel` — stopping a build takes a course of any kind that allows this
  much.
-/
import BuildDesk.Command.Action
import BuildDesk.Proofs.Server.Courses

namespace BuildDesk

open Desk

namespace Server

/-- Consent to a request that stops a build: the server was asked for the last build of a job, and
said that it is running; at once the user was asked whether to stop that build, and said yes; and
the request, before which a crumb may be asked for, goes to that build. -/
inductive Consent (server : Server) : List Moment → Request → Prop
  | given {job : String} {label v : Json} {lang : Lang} {message : String} {standard : Bool}
      {status r : Request} {reply : Reply} {seconds : Float} {last : LastBuild}
      {crumbs : List Moment} (hasked : server.lastBuildRequest? job = some status)
      (hserved : isFailure reply.status = .ok false) (hlast : lastBuildIn reply = .ok last)
      (hrunning : last.building = true)
      (hquestion : server.settings.addressed lang (Phrase.say lang Notice.cancelConfirm
        [("label", label), ("number", last.number)]) = .ok message)
      (hyes : v.truthy = true) (hcrumbs : server.Crumbs crumbs) (hpost : r.method = "POST")
      (hstop : join last.url "stop" = .ok r.url) :
      Consent server (.sent ⟨status, some (.reply reply seconds)⟩ ::
        .asked (.confirm (.str message) (.bool standard)) (some (.value v)) :: crumbs) r

end Server

namespace Moment

/-- The kind allows prompts, and builds stopped with consent. -/
class Stopping (server : Server) (P : List Moment → Prop) : Prop where
  asks : ∀ {prompt : Event} {answer}, prompt.isPrompt = true → P [.asked prompt answer]
  stops : ∀ {asking : List Moment} {r response}, server.Consent asking r →
    P (asking ++ [.sent ⟨r, response⟩])

/-- The kind allows requests that queue builds as well. -/
class Free (server : Server) (P : List Moment → Prop) : Prop extends Stopping server P where
  triggers : ∀ {r : Request} {response}, Event.IsTrigger r → P [.sent ⟨r, response⟩]

instance (server : Server) : Free server Any where
  asks _ := trivial
  stops _ := trivial
  triggers _ := trivial

end Moment

namespace Command

open Moment

variable {server : Server} {job : String} {label : Json} {P : List Moment → Prop}

/-! ### The question -/

/-- The last build of a job was asked for. -/
def LooksAt (server : Server) (job : String) (last : Server.LastBuild) (c : List Moment) : Prop :=
  ∃ status reply seconds, server.lastBuildRequest? job = some status ∧
    Server.isFailure reply.status = .ok false ∧ Server.lastBuildIn reply = .ok last ∧
    c = [.sent ⟨status, some (.reply reply seconds)⟩]

/-- The request for the last build of a job reads, and lists nothing. -/
theorem reads_of_lastBuildRequest? {status : Request}
    (h : server.lastBuildRequest? job = some status) :
    status.method = "GET" ∧ isListing status = false := by
  have hstatus : status = _ := (Option.some.inj h).symm
  subst hstatus
  exact ⟨rfl, rfl⟩

theorem courses_runningBuild [Reading P] (server : Server) (job : String) (label : Json) :
    (runningBuild server job label).Courses fun r c => P c ∧
      ∀ last, r = .ok last → last.building = true ∧ LooksAt server job last c := by
  have hreads : ∀ {status : Request} {response}, server.lastBuildRequest? job = some status →
      P [.sent ⟨status, response⟩] := fun h =>
    Reading.reads (reads_of_lastBuildRequest? h).1 (reads_of_lastBuildRequest? h).2
  have hlook : (server.lastBuild (.str job)).Courses fun r c => P c ∧
      ∀ last, r = .ok last → LooksAt server job last c := by
    refine (server.courses_lastBuild job).mono fun {r c} hc => ?_
    cases hc with
    | nowhere => exact ⟨Simple.nil, nofun⟩
    | failed hrequest => exact ⟨hreads hrequest, nofun⟩
    | served hrequest hserved hresult =>
      exact ⟨hreads hrequest, fun last hr => ⟨_, _, _, hrequest, hserved, hresult.trans hr, rfl⟩⟩
  refine courses_bind hlook (N := fun last r c => c = [] ∧
    ∀ found, r = .ok found → found = last ∧ found.building = true) (fun last s => ?_)
    (fun hc => ⟨hc.1, nofun⟩) ?_
  · cases hgone : !last.building || !last.url.truthy with
    | true =>
      rw [if_pos rfl]
      exact ⟨[], rfl, rfl, rfl, rfl, nofun⟩
    | false =>
      rw [if_neg (by decide)]
      refine ⟨[], rfl, rfl, rfl, rfl, ?_⟩
      rintro _ ⟨⟩
      rw [Bool.or_eq_false_iff, Bool.not_eq_false'] at hgone
      exact ⟨rfl, hgone.1⟩
  · rintro last r c _ ⟨hP, hlooks⟩ ⟨rfl, hfound⟩
    rw [List.append_nil]
    refine ⟨hP, fun found hr => ?_⟩
    obtain ⟨rfl, hrunning⟩ := hfound found hr
    exact ⟨hrunning, hlooks _ rfl⟩

/-- A question was asked in some language and its answer was taken; or nothing happened, when the
server cannot be named. -/
def Asked (settings : Settings) (question : Notice) (args : Arguments) (standard : Bool)
    (r : Except Fault Bool) (c : List Moment) : Prop :=
  (c = [] ∧ ∃ f, r = .error f) ∨ ∃ lang message answer,
    settings.addressed lang (Phrase.say lang question args) = .ok message ∧
    c = [.asked (.confirm (.str message) (.bool standard)) answer] ∧
    ∀ agreed, r = .ok agreed → ∃ v, answer = some (.value v) ∧ agreed = v.truthy

theorem courses_question (settings : Settings) (question : Notice) (args : Arguments)
    (standard : Bool) :
    (do confirm settings (← Desk.say question args) standard : Desk Bool).Courses
      (Asked settings question args standard) := by
  have hask : ∀ message, (do
      let answer ← Desk.ask (.confirm (.str message) (.bool standard))
      pure answer.truthy : Desk Bool).Courses fun r c => ∃ answer,
        c = [.asked (.confirm (.str message) (.bool standard)) answer] ∧
        ∀ agreed, r = .ok agreed → ∃ v, answer = some (.value v) ∧ agreed = v.truthy := by
    refine fun message => courses_after (courses_ask rfl) ?_ ?_
    · rintro f _ ⟨answer, rfl, -⟩
      exact ⟨answer, rfl, nofun⟩
    · rintro v _ ⟨answer, rfl, hanswer⟩
      refine courses_pure ⟨answer, rfl, ?_⟩
      rintro _ ⟨⟩
      exact ⟨v, hanswer v rfl, rfl⟩
  intro s
  -- the question and the name of the server are put in the language that the session has
  have hnamed :
      (Desk.ofExcept
          (settings.addressed s.lang (Phrase.say s.lang question args))).Courses fun r c =>
        c = [] ∧ r = settings.addressed s.lang (Phrase.say s.lang question args) :=
    courses_ofExcept ⟨rfl, rfl⟩
  have hsaid : (Desk.ofExcept (settings.addressed s.lang (Phrase.say s.lang question args)) >>=
      fun message => do
        let answer ← Desk.ask (.confirm (.str message) (.bool standard))
        pure answer.truthy : Desk Bool).Courses (Asked settings question args standard) := by
    refine courses_after hnamed (fun {f c} hc => .inl ⟨hc.1, f, rfl⟩) fun {message c} hc => ?_
    obtain ⟨rfl, hmessage⟩ := hc
    refine (hask message).mono fun hc => .inr ?_
    obtain ⟨answer, rfl, hanswer⟩ := hc
    exact ⟨s.lang, message, answer, hmessage.symm, rfl, hanswer⟩
  exact hsaid s

/-! ### Stopping a build -/

/-- A crumb may be asked for. -/
theorem of_crumbs [Reading P] {crumbs : List Moment} (h : server.Crumbs crumbs) : P crumbs := by
  rcases h with rfl | ⟨response, rfl⟩
  · exact Simple.nil
  · exact Reading.reads rfl rfl

/-- The user is told how the question was settled. -/
theorem courses_told [Simple P] (message : Notice) (args : Arguments) :
    (do
      Console.printOk (← Desk.say message args)
      pure .ok : Desk Flow.ActionResult).Courses fun _ c => P c :=
  courses_then (courses_get_bind fun _ => courses_pure Simple.nil) fun _ =>
    courses_then ((courses_emit rfl).mono fun hc => hc ▸ Simple.mere rfl) fun _ =>
      courses_pure Simple.nil

/-- A build is stopped when that is agreed. -/
theorem courses_settle [Reading P] (server : Server) (last : Server.LastBuild) (agreed : Bool) :
    (do
      if agreed then
        server.stop last.url
        Console.printOk (← Desk.say Notice.buildCancelled [("url", last.url)])
      else Console.printOk (← Desk.say Notice.cancelSkipped [])
      pure .ok : Desk Flow.ActionResult).Courses fun _ c => P c ∨ agreed = true ∧
        ∃ crumbs r response told, server.Crumbs crumbs ∧ r.method = "POST" ∧
          Server.join last.url "stop" = .ok r.url ∧ P told ∧
          c = crumbs ++ .sent ⟨r, response⟩ :: told := by
  cases agreed with
  | false => exact (courses_told _ _).mono .inl
  | true =>
    refine courses_bind (server.courses_stop last.url) (fun _ => courses_told (P := P) _ _)
      (fun {f c} hc => ?_) ?_
    · cases hc with
      | unsent hcrumbs => exact .inl (of_crumbs hcrumbs)
      | failed hcrumbs hmethod haddress =>
        exact .inr ⟨rfl, _, _, _, [], hcrumbs, hmethod, haddress, Simple.nil, rfl⟩
    · rintro _ r c told hc htold
      cases hc with
      | served hcrumbs hmethod haddress =>
        exact .inr ⟨rfl, _, _, _, told, hcrumbs, hmethod, haddress, htold,
          by rw [List.append_assoc]; rfl⟩

/-- **A build is stopped with consent**, or it is not stopped. -/
theorem courses_cancel [Reading P] [Stopping server P] (job : String) (label : Json)
    (standard : Bool) : (cancel server job label
      (some fun text => confirm server.settings text standard)).Courses fun _ c => P c := by
  -- what follows the look at the last build: a question, and what is made of its answer
  have hask : ∀ last : Server.LastBuild, (do
      let agreed ← (do confirm server.settings (← Desk.say Notice.cancelConfirm
        [("label", label), ("number", last.number)]) standard)
      if agreed then
        server.stop last.url
        Console.printOk (← Desk.say Notice.buildCancelled [("url", last.url)])
      else Console.printOk (← Desk.say Notice.cancelSkipped [])
      pure .ok : Desk Flow.ActionResult).Courses fun _ c => ∀ look, last.building = true →
        LooksAt server job last look → P look → P (look ++ c) := by
    refine fun last => courses_bind
      (courses_question server.settings .cancelConfirm _ standard)
      (courses_settle (P := P) server last) ?_ ?_
    · rintro f _ (⟨rfl, -⟩ | ⟨lang, message, answer, -, rfl, -⟩) look - - hlook
      · rwa [List.append_nil]
      · exact Simple.append hlook (Stopping.asks server rfl)
    · rintro agreed r _ c' (⟨-, f, hf⟩ | ⟨lang, message, answer, hmessage, rfl, hanswer⟩) hc' look
        hrunning hlooks hlook
      · cases hf
      rcases hc' with hc' | ⟨rfl, crumbs, q, response, told, hcrumbs, hmethod, hstop, htold, rfl⟩
      · exact Simple.append hlook (Simple.append (Stopping.asks server rfl) hc')
      obtain ⟨v, rfl, hyes⟩ := hanswer true rfl
      obtain ⟨status, reply, seconds, hstatus, hserved, hreply, rfl⟩ := hlooks
      have hconsent : server.Consent (.sent ⟨status, some (.reply reply seconds)⟩ ::
          .asked (.confirm (.str message) (.bool standard)) (some (.value v)) :: crumbs) q :=
        .given hstatus hserved hreply hrunning hmessage hyes.symm hcrumbs hmethod hstop
      have hstopped := Simple.append (Stopping.stops hconsent : P (_ ++ [.sent ⟨q, response⟩]))
        htold
      simpa using hstopped
  refine courses_bind (courses_runningBuild (P := P) server job label) hask (fun hc => hc.1) ?_
  rintro last r look c ⟨hlook, hlast⟩ hc
  obtain ⟨hrunning, hlooks⟩ := hlast last rfl
  exact hc look hrunning hlooks hlook

end Command
end BuildDesk
