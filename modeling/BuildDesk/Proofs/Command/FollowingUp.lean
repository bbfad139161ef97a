/-
Following up on the build that was triggered.

After a trigger, a follow-up knows the place of the build in the queue, and where the build is once
the server has said so there.  What `watch` reads is that place and that build.  So does `logs`; but
as long as the build has not started, it reads the log of the last build of the job, which is
another one:

* `Knows`, `courses_buildUrl` — what a follow-up knows of the build;
* `courses_actWatch`, `courses_actLogs` — what these actions read;
* `Keeps`, `keeps_act`, `keeps_perform` — an action that does not trigger the build again makes it
  know nothing else;
* `Server.Stale`, `runs_logsQueued` — reading the last build, and when `logs` does so;
* `Tracked`, `Tracked.act` — a follow-up with its last trigger, one action after another;
* `Tracked.sound_act`, `Tracked.sound_of_reached` — one action, and all of them;
* `follow_ups_read_triggered` — what `watch` and `logs` read, whatever was done before.
-/
import BuildDesk.Proofs.Command.Watching

namespace BuildDesk

open Desk Moment

namespace Server

/-- The build in the queue was said not to have started, and the request is about the last build of
the job. -/
def Stale (server : Server) (queue : Json) (job : String) (past : List Moment)
    (r : Request) : Prop :=
  server.Says queue none past ∧ server.LastLog job past r

end Server

namespace Command

open Console Server BuildDesk.Flow

variable {server : Server} {queue : Json} {order : Order} {ctx : FollowUp.Context} {action : String}
variable {past : List Moment}

/-! ### What a follow-up knows -/

/-- A follow-up knows the place in the queue, and of the build no more than what the server said
about this place. -/
structure Knows (server : Server) (queue : Json) (past : List Moment) (ctx : FollowUp.Context) :
    Prop where
  place : ctx.build.queue.present? = some queue
  said : ∀ url, ctx.build.url = some url → server.Says queue (some url) past

theorem Knows.later (h : Knows server queue past ctx) (c : List Moment) :
    Knows server queue (past ++ c) ctx :=
  ⟨h.place, fun url hurl => (h.said url hurl).of_subset (List.subset_append_left _ _)⟩

/-- What the server says is an address, and no empty one. -/
theorem present_of_said {url : Json} (h : server.Says queue (some url) past) :
    url.present? = some url := by
  obtain ⟨-, reply, -, -, -, hvalue, -⟩ := h
  obtain ⟨data, -, hvalue⟩ := exists_of_bind_eq_ok hvalue
  obtain ⟨withdrawn, -, hvalue⟩ := exists_of_bind_eq_ok hvalue
  dsimp only at hvalue
  split at hvalue
  · cases hvalue
  · obtain ⟨found, -, hfound⟩ := exists_of_bind_eq_ok hvalue
    have hpresent : found.present? = some url := Except.ok.inj hfound
    unfold Json.present? at hpresent ⊢
    split at hpresent
    · rename_i htruthy
      obtain rfl := Option.some.inj hpresent
      rw [if_pos htruthy]
    · cases hpresent

/-- The address of the build is known, or the place in the queue is looked at for it. -/
theorem courses_buildUrl (h : Knows server queue past ctx) :
    (buildUrl server).Courses ctx fun r ctx' c => Knows server queue (past ++ c) ctx' ∧
      Silent (fun r => (Call.queuedBuild queue).request? server = some r) c ∧
      ∀ url, r = .ok url → ctx'.build.url = url ∧ (url = none → server.Says queue none c) := by
  refine Step.courses_context_bind ?_
  dsimp only
  rw [h.place]
  cases hurl : ctx.build.url with
  | some url =>
    refine Step.courses_pure ⟨h.later [], silent_nil, ?_⟩
    rintro _ ⟨⟩
    exact ⟨hurl, nofun⟩
  | none =>
    dsimp only
    refine Step.courses_after (Step.courses_ofDesk (server.courses_queuedBuild queue))
      (fun {f ctx' c} hc => ?_) fun {url ctx' c} hc => ?_
    · obtain ⟨rfl, hreads⟩ := hc
      exact ⟨h.later c, silent_of_reads hreads, nofun⟩
    · obtain ⟨rfl, hreads⟩ := hc
      refine fun s => Session.runs_of_eq ?_ rfl rfl rfl
      dsimp only
      rw [List.append_nil]
      refine ⟨⟨h.place, fun found hfound => ?_⟩, silent_of_reads hreads, ?_⟩
      · obtain rfl : url = some found := hfound
        exact hreads.told.of_subset (List.subset_append_right _ _)
      · rintro _ ⟨⟩
        refine ⟨rfl, ?_⟩
        rintro rfl
        exact hreads.told

/-- `watch` looks at the place in the queue or at the build that was said to be there. -/
theorem courses_actWatch (h : Knows server queue past ctx) :
    (act server order "watch").Courses ctx fun _ ctx' c => Knows server queue (past ++ c) ctx' ∧
      InTime (fun before => server.Fresh queue .build (past ++ before)) c := by
  show (buildUrl server >>= fun url => Step.context >>= fun ctx => _).Courses _ _
  refine Step.courses_after (courses_buildUrl h)
    (fun hc => ⟨hc.1, inTime_of_silent hc.2.1 fun _ _ => .inl⟩) fun {url ctx' c} hc => ?_
  obtain ⟨hknows, hlook, hurl⟩ := hc
  -- what is left to do is in time after the look at the queue
  have hthen : ∀ {part : Desk ActionResult}, (part.Courses fun _ c' =>
      InTime (fun before => server.Fresh queue .build (past ++ c ++ before)) c') →
      (Step.ofDesk part).Courses ctx' fun _ ctx'' c' =>
        Knows server queue (past ++ (c ++ c')) ctx'' ∧
        InTime (fun before => server.Fresh queue .build (past ++ before)) (c ++ c') := by
    refine fun hpart => (Step.courses_ofDesk hpart).mono fun {r ctx'' c'} hc' => ?_
    obtain ⟨rfl, hintime⟩ := hc'
    refine ⟨List.append_assoc past c c' ▸ hknows.later c', ?_⟩
    refine (inTime_of_silent hlook fun _ _ => .inl).append ?_
    simpa only [List.append_assoc] using hintime
  refine Step.courses_context_bind (hthen ?_)
  cases url with
  | none =>
    have hwatch : ∀ pace, (untilFinished server
        { job := order.job, label := order.label, queue := ctx'.build.queue } pace).Courses
          fun _ c => InTime (server.Fresh queue .build) c := fun _ =>
      courses_untilFinishedQueued rfl hknows.place
    exact (courses_watch hwatch).mono fun hc' => hc'.later _
  | some url =>
    have hsaid := hknows.said url (hurl _ rfl).1
    refine (courses_watch fun pace => ?_).mono (inTime_of_known hsaid)
    exact courses_untilFinishedKnown (present_of_said hsaid)

/-- `logs` looks at the place in the queue and at the log of the build that was said to be there;
while the build has not started, at the log of the last build. -/
theorem courses_actLogs (h : Knows server queue past ctx) :
    (act server order "logs").Courses ctx fun _ ctx' c => Knows server queue (past ++ c) ctx' ∧
      InTime (fun before r => server.Fresh queue .consoleText (past ++ before) r ∨
        server.Stale queue order.job before r) c := by
  show (buildUrl server >>= fun url => _).Courses _ _
  refine Step.courses_after (courses_buildUrl h)
    (fun hc => ⟨hc.1, inTime_of_silent hc.2.1 fun _ _ hr => .inl (.inl hr)⟩)
    fun {url ctx' c} hc => ?_
  obtain ⟨hknows, hlook, hurl⟩ := hc
  obtain ⟨hctx, hnone⟩ := hurl url rfl
  have hthen : ∀ {c'}, InTime (fun before r =>
      server.Fresh queue .consoleText (past ++ c ++ before) r ∨
      server.Stale queue order.job (c ++ before) r) c' →
      Knows server queue (past ++ (c ++ c')) ctx' ∧
        InTime (fun before r => server.Fresh queue .consoleText (past ++ before) r ∨
          server.Stale queue order.job before r) (c ++ c') := by
    refine fun {c'} hintime => ⟨List.append_assoc past c c' ▸ hknows.later c', ?_⟩
    refine (inTime_of_silent hlook fun _ _ hr => .inl (.inl hr)).append ?_
    simpa only [List.append_assoc] using hintime
  cases url with
  | none =>
    refine (Step.courses_ofDesk (courses_showLogLast server order.job order.label)).mono
      fun {r ctx'' c'} hc' => ?_
    obtain ⟨rfl, hlast, -⟩ := hc'
    refine hthen (hlast.mono fun before r hr => .inr ⟨?_, ?_⟩)
    · exact (hnone rfl).of_subset (List.subset_append_left _ _)
    · exact Lasting.lasts c hr
  | some url =>
    have hsaid := hknows.said url hctx
    have hshow : (showLog server order.job order.label (some url)).Courses fun _ c =>
        Silent (fun r => (Call.consoleText url).request? server = some r) c :=
      courses_showLogKnown order.job order.label (present_of_said hsaid)
    refine (Step.courses_ofDesk hshow).mono fun {r ctx'' c'} hc' => ?_
    obtain ⟨rfl, hlog⟩ := hc'
    exact hthen ((inTime_of_known hsaid hlog).mono fun _ _ => .inl)

/-- An action as the menu sees it sends what the action sends, and ends well when it does. -/
theorem runs_perform {D R : Except Fault ActionResult → FollowUp.Context → List Moment → Prop}
    {s : Session} (h : s.Runs (D ((act server order action).outcome ctx s).1.1
      ((act server order action).outcome ctx s).1.2) ((act server order action).outcome ctx s).2)
    (hok : ∀ {result ctx' c}, D (.ok result) ctx' c → R (.ok result) ctx' c)
    (herror : ∀ {f r ctx' c told}, D (.error f) ctx' c → Silent (fun _ => False) told →
      r ≠ .ok .ok → R r ctx' (c ++ told)) :
    s.Runs (R ((perform server order action).outcome ctx s).1.1
      ((perform server order action).outcome ctx s).1.2)
        ((perform server order action).outcome ctx s).2 := by
  refine Step.runs_tryCatch h (N := fun _ ctx' r ctx'' told => ctx'' = ctx' ∧
    Silent (fun _ => False) told ∧ r ≠ .ok .ok) (fun f ctx' => ?_) hok
    fun {f ctx' r ctx'' c told} hc htold => ?_
  · cases f with
    | complaint complaint =>
      dsimp only
      split
      · exact Step.courses_throw ⟨rfl, silent_nil, nofun⟩
      · refine Step.courses_after (Step.courses_ofDesk
          (courses_of_echoes (carries_printComplaint complaint))) (fun hc => ⟨hc.1, hc.2, nofun⟩)
          fun hc => Step.courses_pure ⟨hc.1, silent_append hc.2 silent_nil, nofun⟩
    | _ => exact Step.courses_throw ⟨rfl, silent_nil, nofun⟩
  · obtain ⟨rfl, hsilent, hr⟩ := htold
    exact herror hc hsilent hr

theorem courses_perform {D R : Except Fault ActionResult → FollowUp.Context → List Moment → Prop}
    (h : (act server order action).Courses ctx D)
    (hok : ∀ {result ctx' c}, D (.ok result) ctx' c → R (.ok result) ctx' c)
    (herror : ∀ {f r ctx' c told}, D (.error f) ctx' c → Silent (fun _ => False) told →
      r ≠ .ok .ok → R r ctx' (c ++ told)) : (perform server order action).Courses ctx R :=
  fun s => runs_perform (h s) hok herror

/-- The follow-up goes on knowing what it knew, unless the action triggered the build again. -/
def Keeps (server : Server) (queue : Json) (past : List Moment) (action : String)
    (r : Except Fault ActionResult) (ctx : FollowUp.Context) (c : List Moment) : Prop :=
  Knows server queue (past ++ c) ctx ∨ action = "rerun" ∧ r = .ok .ok

theorem keeps_act (h : Knows server queue past ctx) :
    (act server order action).Courses ctx (Keeps server queue past action) := by
  by_cases hwatch : action = "watch"
  · subst hwatch
    exact (courses_actWatch h).mono fun hc => .inl hc.1
  by_cases hlogs : action = "logs"
  · subst hlogs
    exact (courses_actLogs h).mono fun hc => .inl hc.1
  have hdesk : ∀ {part : Desk ActionResult}, part.Carries Any →
      (Step.ofDesk part).Courses ctx (Keeps server queue past action) := fun hpart =>
    (Step.courses_ofDesk (courses_of_echoes hpart)).mono fun hc => .inl (hc.1 ▸ h.later _)
  unfold act
  rw [if_neg (by simpa using hwatch), if_neg (by simpa using hlogs)]
  split
  · exact hdesk (carries_cancel server _ _ _)
  · split
    · rename_i hrerun
      have hplace : (place server order).Courses ctx fun r ctx' _ => r = .ok () ∨ ctx' = ctx :=
        Step.courses_after (Step.courses_ofDesk (courses_of_echoes
          (carries_place (P := Any) server order fun _ => trivial))) (fun hc => .inr hc.1)
          fun _ => Step.courses_change (.inl rfl)
      refine Step.courses_after hplace (fun {f ctx' c} hc => ?_) fun _ =>
        Step.courses_pure (.inr ⟨beq_iff_eq.mp hrerun, rfl⟩)
      obtain rfl : ctx' = ctx := hc.resolve_left nofun
      exact .inl (h.later c)
    · exact hdesk (carries_refuse _ _ _)

theorem keeps_perform (h : Knows server queue past ctx) :
    (perform server order action).Courses ctx (Keeps server queue past action) := by
  refine courses_perform (keeps_act h) id fun {f r ctx' c told} hc _ _ => .inl ?_
  rw [← List.append_assoc]
  exact (hc.resolve_right fun hr => nomatch hr.2).later told

/-- What is shown of a complaint comes in time. -/
theorem InTime.told {told : List Moment} (h : InTime allowed c)
    (htold : Silent (fun _ => False) told) : InTime allowed (c ++ told) :=
  h.append (inTime_of_unsent htold)

/-- As long as it is not known where the build is and it has not started, `logs` asks for the last
build. -/
theorem runs_logsQueued (h : Knows server queue past ctx) (hurl : ctx.build.url = none)
    {s s₁ : Session} (hqueued : (server.queuedBuild queue).Yields s none s₁) :
    s.Runs (AsksFor ((Call.lastBuild (.str order.job)).request? server))
      ((perform server order "logs").outcome ctx s).2 := by
  have hlook : s.Runs Any s₁ := by
    have hruns := server.courses_queuedBuild queue s
    rw [hqueued] at hruns
    exact hruns.mono fun _ _ => trivial
  have hbuild : (buildUrl server).Yields ctx s none
      { ctx with build := { ctx.build with url := none } } s₁ := by
    refine Step.yields_context_bind.mpr ?_
    dsimp only
    rw [h.place, hurl]
    exact Step.yields_bind.mpr ⟨none, ctx, s₁, Step.yields_ofDesk.mpr ⟨hqueued, rfl⟩,
      Step.yields_bind.mpr ⟨(), _, s₁, rfl, rfl⟩⟩
  have hact : (act server order "logs").outcome ctx s =
      (Step.ofDesk (showLog server order.job order.label none)).outcome
        { ctx with build := { ctx.build with url := none } } s₁ := by
    show (buildUrl server >>= fun url => _).outcome ctx s = _
    rw [Step.outcome_bind, hbuild]
  refine runs_perform
    (D := fun _ _ => AsksFor ((Call.lastBuild (.str order.job)).request? server))
    (R := fun _ _ => AsksFor ((Call.lastBuild (.str order.job)).request? server)) ?_ id
    fun hasked _ _ => hasked.of_subset (List.subset_append_left _ _)
  rw [hact]
  exact hlook.append (courses_showLogLast server order.job order.label s₁)
    fun _ hlast => hlast.2.of_subset (List.subset_append_right _ _)

/-! ### A follow-up with its last trigger -/

/-- A build that is followed up, and the trigger that queued it. -/
structure Tracked where
  /-- The session right after the trigger. -/
  since : Session
  /-- What the trigger came to: the place in the queue, if the server named it. -/
  queue : Json
  ctx : FollowUp.Context
  session : Session

namespace Tracked

/-- What happened since the trigger. -/
def history (t : Tracked) : List Moment := t.since.course t.session

/-- The build was just triggered. -/
def Begins (server : Server) (order : Order) (t : Tracked) : Prop :=
  ∃ ctx s, (order.place server).Yields s t.queue t.since ∧
    (place server order).Yields ctx s () t.ctx t.session

/-- The follow-up after an action; the action may trigger the build again. -/
def act (server : Server) (order : Order) (t : Tracked) (action : String) : Tracked :=
  let out := (perform server order action).outcome t.ctx t.session
  match action == "rerun", (order.place server).outcome t.session with
  | true, (.ok queue, s) => { since := s, queue, ctx := out.1.2, session := out.2 }
  | _, _ => { t with ctx := out.1.2, session := out.2 }

/-- The follow-up was begun, and any actions were performed since. -/
def Reached (server : Server) (order : Order) (t : Tracked) : Prop :=
  ∃ (t₀ : Tracked) (actions : List String), t₀.Begins server order ∧
    t = actions.foldl (Tracked.act server order) t₀

/-- What happens when an action is performed. -/
def course (server : Server) (order : Order) (t : Tracked) (action : String) : List Moment :=
  t.session.course (t.act server order action).session

/-- The follow-up knows no more than what was said since the trigger. -/
structure Sound (server : Server) (t : Tracked) : Prop where
  runs : t.since.Runs Any t.session
  knows : ∀ queue, t.queue.present? = some queue → Knows server queue t.history t.ctx

end Tracked

section
variable {t : Tracked} {s s' : Session}

theorem yields_place {ctx' : FollowUp.Context} : (place server order).Yields ctx s () ctx' s' ↔
    ∃ queue, (order.place server).Yields s queue s' ∧
      ctx' = { ctx with build := ⟨queue, none⟩ } := by
  refine Step.yields_bind.trans ⟨?_, ?_⟩
  · rintro ⟨queue, ctx₁, s₁, hplaced, hchanged⟩
    obtain ⟨hyields, rfl⟩ := Step.yields_ofDesk.mp hplaced
    obtain ⟨rfl, rfl⟩ := Step.yields_change.mp hchanged
    exact ⟨queue, hyields, rfl⟩
  · rintro ⟨queue, hplaced, rfl⟩
    exact ⟨queue, ctx, s', Step.yields_ofDesk.mpr ⟨hplaced, rfl⟩,
      Step.yields_change.mpr ⟨rfl, rfl⟩⟩

/-- Triggering the build again forgets where it was. -/
theorem yields_rerun (h : (order.place server).Yields s queue s') :
    (perform server order "rerun").Yields ctx s .ok { ctx with build := ⟨queue, none⟩ } s' :=
  Step.yields_tryCatch.mpr (.inl (Step.yields_bind.mpr
    ⟨(), _, s', yields_place.mpr ⟨queue, h, rfl⟩, Step.yields_pure.mpr ⟨rfl, rfl, rfl⟩⟩))

/-- The action ends well only when the build was triggered again. -/
theorem placed_of_rerun (h : ((perform server order "rerun").outcome ctx s).1.1 = .ok .ok) :
    ∃ queue s', (order.place server).Yields s queue s' := by
  have hyields : (perform server order "rerun").Yields ctx s .ok
      ((perform server order "rerun").outcome ctx s).1.2
      ((perform server order "rerun").outcome ctx s).2 := by
    unfold Step.Yields
    rw [← h]
  rcases Step.yields_tryCatch.mp hyields with hact | ⟨f, ctx₁, s₁, -, hhandled⟩
  · obtain ⟨⟨⟩, ctx₁, s₁, hplaced, -⟩ := Step.yields_bind.mp hact
    obtain ⟨queue, hplaced, -⟩ := yields_place.mp hplaced
    exact ⟨queue, s₁, hplaced⟩
  · cases f with
    | complaint complaint =>
      dsimp only at hhandled
      split at hhandled
      · exact absurd hhandled Step.yields_throw
      · obtain ⟨_, _, _, -, hpure⟩ := Step.yields_bind.mp hhandled
        exact nomatch (Step.yields_pure.mp hpure).1
    | _ => exact absurd hhandled Step.yields_throw

namespace Tracked

/-- The action triggers the build again. -/
theorem act_of_placed (h : (order.place server).Yields t.session queue s) :
    t.act server order "rerun" =
      { since := s, queue, ctx := { t.ctx with build := ⟨queue, none⟩ }, session := s } := by
  have hout : (perform server order "rerun").Yields t.ctx t.session .ok _ s := yields_rerun h
  unfold Step.Yields at hout
  unfold Desk.Yields at h
  unfold act
  rw [hout, h]
  rfl

/-- The action does not trigger the build again. -/
theorem act_of_kept
    (h : action = "rerun" → ∀ queue s, ¬ (order.place server).Yields t.session queue s) :
    t.act server order action =
      { t with
        ctx := ((perform server order action).outcome t.ctx t.session).1.2
        session := ((perform server order action).outcome t.ctx t.session).2 } := by
  unfold act
  dsimp only
  split
  · rename_i queue s hrerun hplaced
    exact absurd hplaced (h (beq_iff_eq.mp hrerun) queue s)
  · rfl

theorem Sound.of_place (hqueue : t.ctx.build = ⟨t.queue, none⟩) (hsession : t.session = t.since) :
    t.Sound server where
  runs := hsession ▸ .refl _
  knows queue hpresent := ⟨by rw [hqueue]; exact hpresent, by rw [hqueue]; nofun⟩

theorem sound_of_begins (h : t.Begins server order) : t.Sound server := by
  obtain ⟨ctx, s, hplaced, hyields⟩ := h
  obtain ⟨queue, hplaced', hctx⟩ := yields_place.mp hyields
  obtain ⟨rfl, hsession⟩ := hplaced'.unique hplaced
  exact .of_place (by rw [hctx]) hsession

/-- One action: the follow-up knows no more than what was said since the last trigger. -/
theorem sound_act (h : t.Sound server) (order : Order) (action : String) :
    (t.act server order action).Sound server := by
  by_cases hplaced : action = "rerun" ∧ ∃ queue s, (order.place server).Yields t.session queue s
  · obtain ⟨rfl, queue, s, hplaced⟩ := hplaced
    rw [act_of_placed hplaced]
    exact .of_place rfl rfl
  · have hkept : action = "rerun" → ∀ queue s, ¬ (order.place server).Yields t.session queue s :=
      fun hrerun queue s hyields => hplaced ⟨hrerun, queue, s, hyields⟩
    have hcarries : (perform server order action).Carries Any :=
      carries_asMenuStep (carries_actStep order action)
    have hruns : t.session.Runs Any ((perform server order action).outcome t.ctx t.session).2 :=
      (hcarries t.ctx t.session t.session rfl).1.runs
    rw [act_of_kept hkept]
    refine ⟨h.runs.trans hruns, fun queue hqueue => ?_⟩
    have hperform : (perform server order action).Courses t.ctx
        (Keeps server queue t.history action) := keeps_perform (h.knows queue hqueue)
    have hkeeps := (hperform t.session).course
    unfold Keeps history at hkeeps
    rw [← h.runs.course_eq hruns] at hkeeps
    refine hkeeps.resolve_right fun hrerun => ?_
    obtain ⟨rfl, hok⟩ := hrerun
    obtain ⟨queue, s, hyields⟩ := placed_of_rerun hok
    exact hkept rfl queue s hyields

/-- Any actions: the same. -/
theorem sound_of_reached (h : t.Reached server order) : t.Sound server := by
  obtain ⟨t₀, actions, hbegins, rfl⟩ := h
  have hsound : t₀.Sound server := sound_of_begins hbegins
  clear hbegins
  induction actions generalizing t₀ with
  | nil => exact hsound
  | cons action actions ih => exact ih _ (sound_act hsound order action)

end Tracked

/-- **A follow-up reads the build that was triggered, but for the log of a queued build.**  After
any actions, with any replies, when the last trigger was told a place in the queue: `watch` asks
for nothing but this place and the build that the server said to be there since; so does `logs`,
unless the server has just said that the build has not started.  Then it asks for the last build of
the job, and for its log. -/
theorem follow_ups_read_triggered (h : t.Reached server order)
    (hqueue : t.queue.present? = some queue) :
    InTime (fun before => server.Fresh queue .build (t.history ++ before))
      (t.course server order "watch") ∧
    InTime (fun before r => server.Fresh queue .consoleText (t.history ++ before) r ∨
      server.Stale queue order.job before r) (t.course server order "logs") ∧
    ((∀ url, ¬ server.Says queue (some url) t.history) →
      ∀ s, (server.queuedBuild queue).Yields t.session none s →
        AsksFor ((Call.lastBuild (.str order.job)).request? server)
          (t.course server order "logs")) := by
  have hknows := (Tracked.sound_of_reached h).knows queue hqueue
  have hcourse : ∀ action, action ≠ "rerun" → t.course server order action =
      t.session.course ((perform server order action).outcome t.ctx t.session).2 := by
    intro action hother
    rw [Tracked.course, Tracked.act_of_kept fun hrerun => absurd hrerun hother]
  rw [hcourse "watch" (by decide), hcourse "logs" (by decide)]
  refine ⟨?_, ?_, fun hunsaid s hqueued => ?_⟩
  · have hwatch : (perform server order "watch").Courses t.ctx fun _ _ c =>
        InTime (fun before => server.Fresh queue .build (t.history ++ before)) c :=
      courses_perform (courses_actWatch hknows) And.right fun hc htold _ => hc.2.told htold
    exact (hwatch t.session).course
  · have hlogs : (perform server order "logs").Courses t.ctx fun _ _ c =>
        InTime (fun before r => server.Fresh queue .consoleText (t.history ++ before) r ∨
          server.Stale queue order.job before r) c :=
      courses_perform (courses_actLogs hknows) And.right fun hc htold _ => hc.2.told htold
    exact (hlogs t.session).course
  · have hurl : t.ctx.build.url = none := by
      cases hurl : t.ctx.build.url with
      | none => rfl
      | some url => exact absurd (hknows.said url hurl) (hunsaid url)
    exact (runs_logsQueued hknows hurl hqueued).course

end

/-- A job with an earlier build, and a server that queues another one. -/
def queuesNext : Session where
  responses := [
    .reply { status := .int 201, headers := [("Location", .str "http://ci/queue/item/7/")] } 0.0,
    .reply {} 0.0,
    .reply { body := .json (.object [("lastBuild",
      .object [("number", .int 41), ("url", .str "http://ci/job/app/41/")])]) } 0.0,
    .reply { body := .text "the earlier build" } 0.0]

/-- The build that is queued. -/
def appOrder : Order where
  job := "http://ci/job/app"
  label := .str "app"

/-- The follow-up on the queued build. -/
def queuedApp : Tracked :=
  let out := (place plainServer appOrder).outcome
    { settings := plainServer.settings, label := appOrder.label } queuesNext
  { since := out.2, queue := out.1.2.build.queue, ctx := out.1.2, session := out.2 }

/-- The place of the queued build. -/
def appPlace : Json := .str "http://ci/queue/item/7/"

theorem reached_queuedApp : queuedApp.Reached plainServer appOrder := by
  have hyields : (place plainServer appOrder).Yields
      { settings := plainServer.settings, label := appOrder.label } queuesNext () queuedApp.ctx
      queuedApp.session := by
    have hok : ((place plainServer appOrder).outcome
        { settings := plainServer.settings, label := appOrder.label } queuesNext).1.1 = .ok () := by
      rfl
    unfold Step.Yields
    rw [← hok]
    rfl
  obtain ⟨queue, hplaced, hctx⟩ := yields_place.mp hyields
  refine ⟨queuedApp, [], ⟨_, queuesNext, ?_, hyields⟩, rfl⟩
  have hqueue : queuedApp.queue = queue := congrArg (fun ctx => ctx.build.queue) hctx
  rw [hqueue]
  exact hplaced

theorem queuedApp_queue : queuedApp.queue.present? = some appPlace := rfl

/-- The queued build has not started: `logs` asks for the last build, and for nothing but that and
the place in the queue. -/
theorem follow_ups_read_triggered_queued :
    queuedApp.Reached plainServer appOrder ∧ queuedApp.queue.present? = some appPlace ∧
    InTime (fun before => plainServer.Fresh appPlace .build (queuedApp.history ++ before))
      (queuedApp.course plainServer appOrder "watch") ∧
    InTime (fun before r =>
      plainServer.Fresh appPlace .consoleText (queuedApp.history ++ before) r ∨
        plainServer.Stale appPlace appOrder.job before r)
      (queuedApp.course plainServer appOrder "logs") ∧
    AsksFor ((Call.lastBuild (.str appOrder.job)).request? plainServer)
      (queuedApp.course plainServer appOrder "logs") := by
  obtain ⟨hwatch, hlogs, hlast⟩ := follow_ups_read_triggered reached_queuedApp queuedApp_queue
  refine ⟨reached_queuedApp, queuedApp_queue, hwatch, hlogs,
    hlast ?_ ((plainServer.queuedBuild appPlace).outcome queuedApp.session).2 ?_⟩
  · rintro url ⟨r, reply, seconds, -, -, -, hmem⟩
    exact absurd hmem (by
      rw [show queuedApp.history = [] from Session.course_self _]
      exact List.not_mem_nil)
  · rfl

/-- The moment is a request to an address. -/
def asksAt (url : String) : Moment → Bool
  | .sent x => x.request.url == url
  | _ => false

/-- The moment is a reply that says where the build in the queue is. -/
def locates (queue : Json) : Moment → Bool
  | .sent ⟨_, some (.reply reply _)⟩ =>
    match queuedIn queue reply with
    | .ok (some _) => true
    | _ => false
  | _ => false

/-- While the build that was triggered has not started, `logs` reads the log of an earlier one. -/
theorem not_log_of_triggered :
    ¬ InTime (fun before => plainServer.Fresh appPlace .consoleText (queuedApp.history ++ before))
      (queuedApp.course plainServer appOrder "logs") := by
  intro hintime
  have hasked : (queuedApp.course plainServer appOrder "logs").any
      (asksAt "http://ci/job/app/41/consoleText") = true := by decide +kernel
  have hsilent : (queuedApp.history ++ queuedApp.course plainServer appOrder "logs").all
      (fun m => !locates appPlace m) = true := by decide +kernel
  obtain ⟨m, hm, hurl⟩ := List.any_eq_true.mp hasked
  obtain ⟨before, after, hsplit⟩ := List.append_of_mem hm
  cases m with
  | sent x =>
    have hx : x.request.url = "http://ci/job/app/41/consoleText" := beq_iff_eq.mp hurl
    rcases hintime before x after hsplit with hqueue | ⟨url, hsays, -⟩
    · have hother : some "http://ci/queue/item/7/api/json" = some x.request.url :=
        congrArg (Option.map Request.url) hqueue
      rw [hx] at hother
      exact absurd hother (by decide)
    · obtain ⟨r, reply, seconds, -, -, hvalue, hmem⟩ := hsays
      have hnone := List.all_eq_true.mp hsilent (.sent ⟨r, some (.reply reply seconds)⟩) (by
        rw [hsplit, ← List.append_assoc]
        exact List.mem_append_left _ hmem)
      simp [locates, hvalue] at hnone
  | _ => cases hurl

end Command
end BuildDesk
