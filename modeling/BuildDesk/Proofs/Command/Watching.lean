/-
Which build is read.

A build is waited for and its log is read at its address.  A build that is queued has no address
yet: there is a place in the queue, and there the server says in time where the build is.  Without
either, the last build of the job is meant:

* `Server.Says` — what the server said about a place in the queue;
* `Server.Fresh`, `Server.LastLog` — requests about the build that was queued, and about the last
  build of a job;
* `InTime` — every request of a course is allowed after what happened before it;
* `courses_untilFinishedKnown`, `courses_untilFinishedQueued`, `courses_watch` — waiting;
* `courses_showLogKnown` — reading the log of a build;
* `ReadsLast`, `courses_lastBuildUrl`, `courses_showLogLast` — reading that of the last build.
-/
import BuildDesk.Proofs.Command.Unattended

namespace BuildDesk

open Desk Moment

namespace Server

/-- On the course, the server said of a place in the queue where the build is, or that it has not
started. -/
def Says (server : Server) (queue : Json) (place : Option Json) (c : List Moment) : Prop :=
  Told ((Call.queuedBuild queue).request? server) (queuedIn queue) place c

/-- The request looks at the place in the queue, or it is about the build that was said to be
there. -/
def Fresh (server : Server) (queue : Json) (about : Json → Call) (past : List Moment)
    (r : Request) : Prop :=
  (Call.queuedBuild queue).request? server = some r ∨
    ∃ url, server.Says queue (some url) past ∧ (about url).request? server = some r

/-- The request asks for the last build of the job, or for the log of the last build that was
told. -/
def LastLog (server : Server) (job : String) (past : List Moment) (r : Request) : Prop :=
  (Call.lastBuild (.str job)).request? server = some r ∨
    ∃ last, Told ((Call.lastBuild (.str job)).request? server) lastBuildIn last past ∧
      (Call.consoleText last.url).request? server = some r

end Server

namespace Command

open Console Server BuildDesk.Flow

variable {α : Type} {server : Server} {queue : Json} {about : Json → Call} {past c c' : List Moment}
variable {allowed allowed' : List Moment → Request → Prop}

/-! ### Requests in time -/

/-- Every request of the course is allowed after what happened before it. -/
def InTime (allowed : List Moment → Request → Prop) (c : List Moment) : Prop :=
  ∀ before x after, c = before ++ .sent x :: after → allowed before x.request

theorem InTime.mono (h : InTime allowed c)
    (hle : ∀ before r, allowed before r → allowed' before r) :
    InTime allowed' c := fun before x after heq => hle _ _ (h before x after heq)

theorem InTime.append (h : InTime allowed c)
    (h' : InTime (fun before => allowed (c ++ before)) c') :
    InTime allowed (c ++ c') := by
  intro before x after heq
  rcases append_eq_split heq with ⟨rest, hleft⟩ | ⟨front, rfl, hright⟩
  · exact h before x rest hleft
  · exact h' front x after hright

/-- Requests that are always allowed are in time. -/
theorem inTime_of_silent {kind : Request → Prop} (h : Silent kind c)
    (hkind : ∀ before r, kind r → allowed before r) : InTime allowed c := by
  rintro before x after rfl
  exact hkind before _ (h.2 x (by simp))

instance (kind : Request → Prop) : Simple (Silent kind) where
  nil := silent_nil
  append := silent_append
  mere _ := silent_did _

/-- What is allowed stays so, whatever happened before. -/
class Lasting (allowed : List Moment → Request → Prop) : Prop where
  lasts : ∀ {before r} (earlier : List Moment), allowed before r → allowed (earlier ++ before) r

/-- Where nothing is sent, everything is in time. -/
theorem inTime_of_unsent (h : Silent (fun _ => False) c) : InTime allowed c :=
  inTime_of_silent h fun _ _ => False.elim

instance [Lasting allowed] : Simple (InTime allowed) where
  nil := inTime_of_unsent silent_nil
  append h h' := h.append (h'.mono fun _ _ => Lasting.lasts _)
  mere _ := inTime_of_unsent (silent_did _)

instance : Lasting (server.Fresh queue about) where
  lasts _ h := h.imp_right fun ⟨url, hsays, hrequest⟩ =>
    ⟨url, hsays.of_subset (List.subset_append_right _ _), hrequest⟩

instance {job : String} : Lasting (server.LastLog job) where
  lasts _ h := h.imp_right fun ⟨last, htold, hrequest⟩ =>
    ⟨last, htold.of_subset (List.subset_append_right _ _), hrequest⟩

/-- What is in time is so after what happened earlier, too. -/
theorem InTime.later [Lasting allowed] (h : InTime allowed c) (earlier : List Moment) :
    InTime (fun before => allowed (earlier ++ before)) c :=
  h.mono fun _ _ => Lasting.lasts earlier

/-- The requests about a build are in time once it was said where that build is. -/
theorem inTime_of_known {url : Json} (hknown : server.Says queue (some url) past)
    (h : Silent (fun r => (about url).request? server = some r) c) :
    InTime (fun before => server.Fresh queue about (past ++ before)) c :=
  inTime_of_silent h fun _ _ hrequest =>
    .inr ⟨url, hknown.of_subset (List.subset_append_left _ _), hrequest⟩

/-! ### Waiting -/

/-- What is looked for again and again is of the kind of each look, and what the looks come to goes
on being so. -/
theorem courses_await {P : List Moment → Prop} [Simple P] {Q : α → List Moment → Prop}
    (hQ : ∀ {a c c'}, Q a c' → Q a (c ++ c')) {look : Desk (Option α)}
    (hlook : look.Courses fun r c => P c ∧ ∀ a, r = .ok (some a) → Q a c) (pace : Pace) :
    (await pace look).Courses fun r c => P c ∧ ∀ a, r = .ok (some a) → Q a c := by
  refine courses_get_bind fun s => ?_
  induction s.responses.length + 1 with
  | zero => exact courses_throw ⟨Simple.nil, nofun⟩
  | succ looks ih =>
    refine courses_after hlook (fun hc => ⟨hc.1, nofun⟩) fun {found c} hc => ?_
    cases found with
    | some found =>
      refine courses_pure ?_
      rw [List.append_nil]
      refine ⟨hc.1, ?_⟩
      rintro _ ⟨⟩
      exact hc.2 found rfl
    | none =>
      refine courses_after (courses_of_echoes (carries_isOver (P := P) pace))
        (fun hover => ⟨Simple.append hc.1 hover, nofun⟩) fun {isOver c₁} hover => ?_
      cases isOver with
      | true => exact courses_pure ⟨Simple.append hc.1 (Simple.append hover Simple.nil), nofun⟩
      | false =>
        refine courses_after (courses_of_echoes (carries_rest (P := P) pace))
          (fun hrest => ⟨Simple.append hc.1 (Simple.append hover hrest), nofun⟩)
          fun {_ c₂} hrest => ih.mono fun hc' => ?_
        exact ⟨Simple.append hc.1 (Simple.append hover (Simple.append hrest hc'.1)),
          fun found hfound => hQ (hQ (hQ (hc'.2 found hfound)))⟩

/-- A reading sends nothing but its request. -/
theorem silent_of_reads {request : Option Request} {value : Reply → Except Fault α}
    {result : Except Fault α} (h : Reads request value result c) :
    Silent (fun r => request = some r) c := by
  refine ⟨fun prompt answer hm => ?_, fun x hx => h.sent hx⟩
  cases h with
  | nowhere => cases hm
  | failed | served => simp at hm

section
variable {target : Target} {pace : Pace}

/-- Waiting for a build at a known address asks for that build. -/
theorem courses_finished (server : Server) (pace : Pace) (url : Json) :
    (await pace (finished server url)).Courses fun _ c =>
      Silent (fun r => (Call.build url).request? server = some r) c := by
  have hlook : (finished server url).Courses fun _ c =>
      Silent (fun r => (Call.build url).request? server = some r) c :=
    courses_then ((server.courses_build url).mono silent_of_reads) fun _ => courses_pure silent_nil
  exact (courses_await (Q := fun _ _ => True) (fun _ => trivial)
    (hlook.mono fun hc => ⟨hc, fun _ _ => trivial⟩) pace).mono And.left

theorem courses_untilFinishedKnown {url : Json} (h : target.build.bind Json.present? = some url) :
    (untilFinished server target pace).Courses fun _ c =>
      Silent (fun r => (Call.build url).request? server = some r) c := by
  have hlocate : locate server target pace = pure (some url) := by
    unfold locate
    rw [h]
  unfold untilFinished
  rw [hlocate]
  exact courses_finished server pace url

theorem courses_untilFinishedQueued (hbuild : target.build.bind Json.present? = none)
    (hqueue : target.queue.present? = some queue) :
    (untilFinished server target pace).Courses fun _ c => InTime (server.Fresh queue .build) c := by
  have hlocate : locate server target pace = await pace (server.queuedBuild queue) := by
    unfold locate
    rw [hbuild, hqueue]
  have hlook : (server.queuedBuild queue).Courses fun r c => InTime (server.Fresh queue .build) c ∧
      ∀ url, r = .ok (some url) → server.Says queue (some url) c := by
    refine (server.courses_queuedBuild queue).mono fun hc => ⟨?_, ?_⟩
    · exact inTime_of_silent (silent_of_reads hc) fun _ _ => .inl
    · rintro url rfl
      exact hc.told
  unfold untilFinished
  rw [hlocate]
  refine courses_after (courses_await (fun hsays => hsays.of_subset (List.subset_append_right _ _))
    hlook pace) And.left fun {place c} hc => ?_
  cases place with
  | none =>
    refine courses_pure ?_
    rw [List.append_nil]
    exact hc.1
  | some url =>
    exact (courses_finished server pace url).mono fun hc' =>
      hc.1.append (inTime_of_known (hc.2 url rfl) hc')

/-- A build is watched on courses of the kind of the wait for it. -/
theorem courses_watch {P : List Moment → Prop} [Simple P]
    (h : ∀ pace, (untilFinished server target pace).Courses fun _ c => P c) :
    (watch server target).Courses fun _ c => P c := by
  have hclosely : ∀ pace, (watchClosely server target pace).Courses fun _ c => P c := fun pace =>
    courses_then (courses_of_echoes (echoes_say _ _)) fun _ =>
      courses_then (courses_of_echoes (echoes_showStatus rfl)) fun _ => h pace
  refine courses_then (courses_then (courses_of_echoes carries_clock) fun started => ?_)
    fun waited => ?_
  · refine courses_tryCatch (courses_then (hclosely _) fun found => ?_)
      (N := fun _ _ c => P c) (fun f => ?_) id Simple.append
    · cases found with
      | none => exact courses_of_echoes (carries_reportTimeout _ _)
      | some build => exact courses_of_echoes (carries_reportFinished _ _)
    · cases f with
      | interrupted =>
        exact courses_then (courses_of_echoes (echoes_say _ _)) fun _ =>
          courses_then (courses_of_echoes (echoes_printWarning _ "")) fun _ =>
            courses_pure Simple.nil
      | _ => exact courses_throw Simple.nil
  · cases waited <;> exact courses_pure Simple.nil

end

/-! ### Reading the log -/

/-- The log at an address is asked for and shown. -/
theorem courses_showText {P : List Moment → Prop} [Simple P] {url : Json}
    (h : (server.consoleText url).Courses fun _ c => P c) :
    (do
      let text ← server.consoleText url
      printRule (← Desk.say Notice.consoleOutput [("url", url)])
      printPlain text
      printRule ""
      pure .ok : Desk ActionResult).Courses fun _ c => P c :=
  courses_then h fun _ => courses_then (courses_of_echoes (echoes_say _ _)) fun _ =>
    courses_then (courses_of_echoes (echoes_printRule rfl)) fun _ =>
      courses_then (courses_of_echoes (carries_printPlain _)) fun _ =>
        courses_then (courses_of_echoes (echoes_printRule rfl)) fun _ => courses_pure Simple.nil

theorem courses_showLogKnown {build : Option Json} {url : Json} (job : String) (label : Json)
    (h : build.bind Json.present? = some url) :
    (showLog server job label build).Courses fun _ c =>
      Silent (fun r => (Call.consoleText url).request? server = some r) c := by
  unfold showLog
  rw [h]
  exact courses_showText ((server.courses_consoleText url).mono silent_of_reads)

/-- The request is sent on the course. -/
def AsksFor (request : Option Request) (c : List Moment) : Prop :=
  ∃ x, .sent x ∈ c ∧ request = some x.request

theorem AsksFor.of_subset {request : Option Request} (h : AsksFor request c) (hsub : c ⊆ c') :
    AsksFor request c' := by
  obtain ⟨x, hx, hrequest⟩ := h
  exact ⟨x, hsub hx, hrequest⟩

/-- The last build of the job is asked for, and its log at most. -/
def ReadsLast (server : Server) (job : String) (c : List Moment) : Prop :=
  InTime (server.LastLog job) c ∧ AsksFor ((Call.lastBuild (.str job)).request? server) c

/-- The last build of the job was asked for, and this is the address that was told. -/
def LastUrl (server : Server) (job : String) (r : Except Fault Json) (c : List Moment) : Prop :=
  ReadsLast server job c ∧ ∀ url, r = .ok url → ∃ last : LastBuild, url = last.url ∧
    Told ((Call.lastBuild (.str job)).request? server) lastBuildIn last c

theorem courses_lastBuildUrl (server : Server) (job : String) (label : Json) :
    (lastBuildUrl server job label).Courses (LastUrl server job) := by
  have hlast : (server.lastBuild (.str job)).Courses fun r c => ReadsLast server job c ∧
      ∀ last, r = .ok last →
        Told ((Call.lastBuild (.str job)).request? server) lastBuildIn last c := by
    refine (server.courses_lastBuild job).mono fun {r c} hc => ⟨⟨?_, ?_⟩, ?_⟩
    · exact inTime_of_silent (silent_of_reads hc) fun _ _ => .inl
    · cases hc with
      | nowhere hrequest => cases hrequest
      | failed hrequest | served hrequest => exact ⟨_, List.mem_singleton_self _, hrequest⟩
    · rintro last rfl
      exact hc.told
  refine courses_after hlast (fun hc => ⟨hc.1, nofun⟩) fun {last c} hc => ?_
  have hdone : ∀ {r : Except Fault Json}, (∀ url, r = .ok url → url = last.url) →
      LastUrl server job r (c ++ []) := by
    rw [List.append_nil]
    exact fun hr => ⟨hc.1, fun url hok => ⟨last, hr url hok, hc.2 last rfl⟩⟩
  dsimp only
  split
  · exact courses_get_bind fun _ s => Session.runs_of_eq (hdone nofun) rfl rfl rfl
  · exact courses_pure (hdone fun url hok => (Except.ok.inj hok).symm)

/-- Without an address, the last build of the job is asked for, and then its log. -/
theorem courses_showLogLast (server : Server) (job : String) (label : Json) :
    (showLog server job label none).Courses fun _ c => ReadsLast server job c := by
  show (lastBuildUrl server job label >>= fun url => _).Courses _
  refine courses_after (courses_lastBuildUrl server job label) And.left fun {url c} hc => ?_
  obtain ⟨⟨hintime, hasked⟩, htold⟩ := hc
  obtain ⟨last, rfl, hlast⟩ := htold url rfl
  have hread : (server.consoleText last.url).Courses fun _ c =>
      Silent (fun r => (Call.consoleText last.url).request? server = some r) c :=
    (server.courses_consoleText last.url).mono silent_of_reads
  refine (courses_showText hread).mono fun {r c'} hc' => ⟨hintime.append ?_, ?_⟩
  · exact inTime_of_silent hc' fun before r hr =>
      .inr ⟨last, hlast.of_subset (List.subset_append_left _ _), hr⟩
  · exact hasked.of_subset (List.subset_append_left _ _)

end Command
end BuildDesk
