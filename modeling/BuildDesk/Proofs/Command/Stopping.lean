/-
No build is stopped without consent.

The kinds of courses that are followed here hold of whatever does no more than read, ask, queue
builds and stop them with consent.  So they hold of the commands, whatever the user answers and the
server replies:

* `Consented` — every request that stops a build has its consent right before it;
* `NeedsYes` — without a yes, nothing but reading goes on;
* `stops_with_consent` — the interactive commands.
-/
import BuildDesk.Proofs.Command.Reliable
import BuildDesk.Proofs.Language.Commands

namespace BuildDesk.Command

open Moment

variable {server : Server}

/-- The request asks to stop a build. -/
def IsStop (r : Request) : Prop := r.method = "POST" ∧ ∃ build, r.url = Server.joinText build "stop"

theorem not_isStop_get {r : Request} (h : r.method = "GET") : ¬ IsStop r := by
  rintro ⟨hpost, -⟩
  rw [h] at hpost
  exact absurd hpost (by decide)

theorem not_isStop_trigger {r : Request} (h : Event.IsTrigger r) : ¬ IsStop r := by
  rintro ⟨-, build, hstop⟩
  exact Event.not_isTrigger_stop build hstop h

/-! ### Consent -/

/-- Every request on the course that stops a build comes right after the consent to it. -/
def Consented (server : Server) (c : List Moment) : Prop :=
  ∀ before r response after, c = before ++ .sent ⟨r, response⟩ :: after → IsStop r →
    ∃ front asking, before = front ++ asking ∧ server.Consent asking r

/-- A course on which no build is stopped. -/
theorem consented_of_none {c : List Moment}
    (h : ∀ r response, .sent ⟨r, response⟩ ∈ c → ¬ IsStop r) :
    Consented server c := by
  rintro before r response after rfl hstop
  exact absurd hstop (h r response (by simp))

/-- The consent to a stop holds requests that read, and no others. -/
theorem reads_of_consent {asking : List Moment} {r : Request} (h : server.Consent asking r)
    {x : Exchange} (hx : .sent x ∈ asking) : x.request.method = "GET" := by
  cases h with
  | given hasked _ _ _ _ _ hcrumbs =>
    simp only [List.mem_cons, sent.injEq, reduceCtorEq, false_or] at hx
    rcases hx with rfl | hx
    · exact (reads_of_lastBuildRequest? hasked).1
    · rcases hcrumbs with rfl | ⟨response, rfl⟩
      · cases hx
      · obtain rfl := sent.inj (List.mem_singleton.mp hx)
        rfl

instance : Listing (Consented server) where
  nil := consented_of_none nofun
  append {c c'} hc hc' := by
    intro before r response after heq hstop
    rcases append_eq_split heq with ⟨rest, hleft⟩ | ⟨front, rfl, hright⟩
    · exact hc before r response rest hleft hstop
    · obtain ⟨front', asking, rfl, hconsent⟩ := hc' front r response after hright hstop
      exact ⟨c ++ front', asking, (List.append_assoc _ _ _).symm, hconsent⟩
  mere _ := consented_of_none (by simp)
  reads h _ := consented_of_none (by simpa using not_isStop_get h)
  lists h := consented_of_none (by simpa using not_isStop_get h)

instance : Free server (Consented server) where
  asks _ := consented_of_none (by simp)
  triggers h := consented_of_none (by simpa using not_isStop_trigger h)
  stops {asking r response} hconsent := by
    intro before q response' after heq hstop
    rcases append_eq_split heq with ⟨rest, hasking⟩ | ⟨front, rfl, hlast⟩
    · exact absurd hstop (not_isStop_get
        (reads_of_consent hconsent (x := ⟨q, response'⟩) (by rw [hasking]; simp)))
    · obtain ⟨rfl, rfl⟩ : front = [] ∧ q = r := by
        cases front with
        | nil => exact ⟨rfl, congrArg Exchange.request (sent.inj (List.cons.inj hlast).1).symm⟩
        | cons m front => simp at hlast
      exact ⟨[], asking, List.append_nil asking, hconsent⟩

/-! ### Without a yes -/

/-- Without a yes to a question, the course only reads. -/
def NeedsYes (c : List Moment) : Prop :=
  (∀ prompt v, .asked prompt (some (.value v)) ∈ c → v.truthy = false) →
    ∀ x, .sent x ∈ c → x.request.method = "GET"

instance : Reading NeedsYes where
  nil _ x hx := by cases hx
  append hc hc' hno x hx := by
    rcases List.mem_append.mp hx with hx | hx
    · exact hc (fun prompt v h => hno prompt v (List.mem_append_left _ h)) x hx
    · exact hc' (fun prompt v h => hno prompt v (List.mem_append_right _ h)) x hx
  mere _ _ x hx := by simp at hx
  reads h _ _ x hx := by
    obtain rfl := sent.inj (List.mem_singleton.mp hx)
    exact h

instance : Stopping server NeedsYes where
  asks _ _ x hx := by simp at hx
  stops hconsent hno := by
    cases hconsent with
    | given _ _ _ _ _ hyes =>
      have hnone := hno _ _ (List.mem_append_left _ (List.mem_cons_of_mem _ List.mem_cons_self))
      rw [hyes] at hnone
      cases hnone

/-! ### The commands -/

/-- **A build is stopped with consent.**  In every run of the interactive commands, from every
session, each request that stops a build comes right after the consent to it, apart from a request
for a crumb: the server was asked for the last build of a job and said that it is running, and the
user was asked whether to stop this build and said yes.  Without a yes, nothing is sent but what
reads. -/
theorem stops_with_consent (server : Server) (s : Session) :
    (∀ interactive anew search,
      Consented server (s.course ((list server interactive anew search).outcome s).2)) ∧
    (∀ interactive nonInteractive wish,
      Consented server (s.course ((status server interactive nonInteractive wish).outcome s).2)) ∧
    (∀ interactive o, Consented server (s.course ((build server interactive o).outcome s).2)) ∧
    (∀ wish, Consented server (s.course ((stop server true wish).outcome s).2)) ∧
    ∀ job label standard, NeedsYes (s.course ((cancel server job label
      (some fun text => confirm server.settings text standard)).outcome s).2) := by
  refine ⟨fun _ _ _ => ?_, fun _ _ _ => ?_, fun _ _ => ?_, fun wish => ?_,
    fun job label standard => ?_⟩
  · exact ((carries_list _ _ _).runs s).course
  · exact ((carries_status _ _ _).runs s).course
  · exact ((carries_build _ _).runs s).course
  · have hstop : (stop server true wish).Carries (Consented server) :=
      carries_stop wish fun h => by cases h
    exact (hstop.runs s).course
  · exact (courses_cancel job label standard s : Session.Runs NeedsYes s _).course

/-- A job with a running build, which the user wants to be stopped. -/
def runningAndUnwanted : Session where
  answers := [.value (.bool true)]
  responses := [.reply { body := .json (.object [("lastBuild", .object [("number", .int 7),
    ("url", .str "http://ci/job/app/7/"), ("building", .bool true)])]) } 0.0, .reply {} 0.0]

/-- The moment is a post to an address. -/
def postsTo (url : String) : Moment → Bool
  | .sent x => x.request.method == "POST" && x.request.url == url
  | _ => false

/-- The build is stopped, and so there was consent to it. -/
theorem stops_with_consent_of_running :
    ∃ before r response after, runningAndUnwanted.course ((stop plainServer true
        { url := some "http://ci/job/app" }).outcome runningAndUnwanted).2 =
          before ++ .sent ⟨r, response⟩ :: after ∧ IsStop r ∧
      ∃ front asking, before = front ++ asking ∧ plainServer.Consent asking r := by
  have hcourse := (stops_with_consent plainServer runningAndUnwanted).2.2.2.1
    { url := some "http://ci/job/app" }
  have hposts : (runningAndUnwanted.course ((stop plainServer true
      { url := some "http://ci/job/app" }).outcome runningAndUnwanted).2).any
        (postsTo (Server.joinText "http://ci/job/app/7/" "stop")) = true := by decide +kernel
  obtain ⟨m, hm, hpost⟩ := List.any_eq_true.mp hposts
  obtain ⟨before, after, hsplit⟩ := List.append_of_mem hm
  cases m with
  | sent x =>
    obtain ⟨hmethod, hurl⟩ := Bool.and_eq_true_iff.mp hpost
    have hstop : IsStop x.request := ⟨beq_iff_eq.mp hmethod, _, beq_iff_eq.mp hurl⟩
    exact ⟨before, x.request, x.response, after, hsplit, hstop,
      hcourse before x.request x.response after hsplit hstop⟩
  | _ => cases hpost

end BuildDesk.Command
