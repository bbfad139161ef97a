/-
Commands carry over from one language to another.

A command puts parts and flows together, so it does the same in every language but for the words:
it sends the same requests, shows the same prompts, writes the same file and comes to the same end.
And whatever a kind of course allows, a build that is stopped is stopped with consent.

Flows run inside the actions of flows, so this goes from the inside out: preparing a build and
following it up, building, the actions on a job, and then the commands:

* `Wish.carries_targetAlone`, `carries_waitFor`, `carries_log`, … — what only looks;
* `carries_build`, `carries_performOn`, `carries_status`, `carries_list` — the larger commands;
* `carries_stop`, `carries_rerun` — the others.
-/
import BuildDesk.Command.List
import BuildDesk.Command.Operate
import BuildDesk.Proofs.Language.Flows

namespace BuildDesk.Command

open Desk Console BuildDesk.Flow Moment

variable {P : List Moment → Prop}

/-! ### Wishes -/

section
variable [Simple P]

theorem Wish.carries_check (wish : Wish) : wish.check.Carries P := by
  unfold Wish.check
  split
  · exact carries_refuse _ _ _
  · exact carries_pure _

theorem Wish.carries_demand (wish : Wish) : wish.demand.Carries P := by
  unfold Wish.demand
  split
  · exact carries_refuse _ _ _
  · exact carries_pure _

theorem Wish.carries_single (wish : Wish) (jobs : List Job) : (wish.single jobs).Carries P := by
  unfold Wish.single
  split
  · exact carries_pure _
  · exact carries_bind (carries_ofExcept _) fun _ => carries_pure _

theorem Wish.carries_preset (wish : Wish) (ctx : Prepare.Context) :
    (wish.preset ctx).Carries P := by
  unfold Wish.preset
  split
  · exact carries_pure _
  · exact carries_pure _
  · dsimp only
    split
    · exact carries_pure _
    · split
      · exact carries_bind (carries_printComplaint _) fun _ => carries_pure _
      · exact carries_throw _
    · exact carries_throw _

theorem BuildOptions.carries_check (o : BuildOptions) : o.check.Carries P := by
  have hlast : (do
      if o.nonInteractive then
        o.wish.demand
        if o.branchName.isNone && !o.defaultBranch then
          Desk.refuse .missingBranch [] (some .missingBranchHint) : Desk Unit).Carries P := by
    split
    · refine carries_bind o.wish.carries_demand fun _ => ?_
      split
      · exact carries_refuse _ _ _
      · exact carries_pure _
    · exact carries_pure _
  unfold BuildOptions.check
  refine carries_bind o.wish.carries_check fun _ => ?_
  dsimp only
  split
  · exact carries_refuse_bind _ _ _ _
  · split
    · split
      · exact carries_refuse_bind _ _ _ _
      · exact hlast
    · exact hlast

theorem carries_patience (value : Option String) (option : String) (standard : Option Quantity) :
    (patience value option standard).Carries P := by
  unfold patience
  dsimp only
  split
  · exact carries_pure _
  · split
    · exact carries_refuse _ _ _
    · refine carries_bind (carries_ofExcept _) fun n => ?_
      split
      · exact carries_refuse _ _ _
      · exact carries_bind (carries_ofExcept _) fun _ => carries_pure _

theorem BuildWish.carries_check (w : BuildWish) : w.check.Carries P := by
  unfold BuildWish.check
  split
  · exact carries_refuse _ _ _
  · exact carries_pure _

end

/-! ### Looking -/

section
variable {server : Server} [Reading P]

/-- Where nobody can be asked, the jobs in the job file have to do. -/
theorem carries_jobsAlone (jobUrl : Option String) :
    (jobsFor server false false jobUrl).Carries P :=
  carries_jobsFor server _ _ _ (by simp) (by simp)

theorem Wish.carries_targetAlone (wish : Wish) : (wish.target server false).Carries P := by
  refine carries_bind wish.carries_check fun _ => ?_
  refine carries_bind wish.carries_demand fun _ => ?_
  exact carries_bind (carries_jobsAlone _) fun _ =>
    carries_bind (wish.carries_single _) fun _ => carries_pure _

theorem carries_printJobs (jobs : List Job) : (printJobs jobs).Carries P := by
  unfold printJobs
  split
  · refine echoes_bind (echoes_say _ _) fun a b hab => ?_
    obtain ⟨lang, lang', rfl, rfl⟩ := hab
    exact echoes_printMarkup (tagging_said_plain (by decide) _ _)
  · refine echoes_bind (echoes_say _ _) fun a b hab => ?_
    obtain ⟨lang, lang', rfl, rfl⟩ := hab
    refine echoes_bind (echoes_say _ _) fun a b hab => ?_
    obtain ⟨job, job', rfl, rfl⟩ := hab
    refine echoes_bind (echoes_say _ _) fun a b hab => ?_
    obtain ⟨url, url', rfl, rfl⟩ := hab
    refine echoes_printTable (tagging_said (by decide) _ _ _) ?_
    exact .cons (tagging_said_plain (by decide) _ _)
      (.cons (tagging_said_plain (by decide) _ _) .nil)

theorem carries_listAlone {anew : Bool} (search : Option String)
    (hlist : anew = true → (Roster.refresh server).Carries P) :
    (list server false anew search).Carries P :=
  carries_bind (carries_jobsFor server _ _ _ (fun h => hlist (h.resolve_right nofun)) (by simp))
    fun _ => carries_bind (carries_ofExcept _) fun _ => carries_printJobs _

theorem carries_statusAlone (interactive : Bool) (wish : Wish) :
    (status server interactive true wish).Carries P := by
  refine carries_bind wish.carries_targetAlone fun found => ?_
  split
  · exact carries_bind (carries_showStatus _ _ _) fun _ => carries_pure _
  · exact carries_pure _

theorem carries_waitFor {interactive : Bool} {w : BuildWish}
    (htarget : (w.wish.target server interactive).Carries P) (interval limit : Option String) :
    (waitFor server interactive w interval limit).Carries P := by
  refine carries_bind w.wish.carries_check fun _ => carries_bind w.carries_check fun _ => ?_
  refine carries_bind (carries_patience _ _ _) fun pause => ?_
  refine carries_bind (carries_patience _ _ _) fun limit => ?_
  split
  · exact carries_bind (carries_wait _ _ _ _) fun _ => carries_pure _
  · refine carries_bind htarget fun found => ?_
    split
    · exact carries_pure _
    · exact carries_bind (carries_wait _ _ _ _) fun _ => carries_pure _

theorem carries_log {interactive : Bool} {w : BuildWish}
    (htarget : (w.wish.target server interactive).Carries P) :
    (log server interactive w).Carries P := by
  refine carries_bind w.carries_check fun _ => ?_
  split
  · exact carries_bind (carries_showLog _ _ _ _) fun _ => carries_pure _
  · refine carries_bind htarget fun found => ?_
    split
    · exact carries_bind (carries_showLog _ _ _ _) fun _ => carries_pure _
    · exact carries_pure _

end

/-! ### Building -/

/-- Prompts are allowed. -/
theorem asks (server : Server) [Free server P] {prompt : Event} {answer : Option Answer}
    (h : prompt.isPrompt = true) : P [.asked prompt answer] := Stopping.asks server h

/-- The answers that are left are the same in every language. -/
theorem carries_answers_bind {α : Type} {f : Nat → Desk α} (h : ∀ n, (f n).Carries P) :
    (do f (← get).answers.length : Desk α).Carries P := by
  refine carries_get_bind (fun s => h _) fun s t hst => ?_
  rw [Session.same Session.answers (fun _ => rfl) hst]

section
variable {server : Server} [Listing P] [Free server P]

theorem Wish.carries_prepare (server : Server) [Free server P] (wish : Wish)
    (ctx : Prepare.Context) : (wish.prepare ctx).Carries P :=
  carries_bind (wish.carries_preset ctx) fun _ =>
    carries_bind (carries_runOn Prepare.translates Prepare.carries_handlers (asks server) _ _)
      fun _ => carries_pure _

theorem carries_buildUrl (server : Server) : (buildUrl server).Carries P := by
  refine Step.carries_bind Step.carries_context fun ctx => ?_
  dsimp only
  split
  · refine Step.carries_bind (Step.carries_ofDesk (Server.carries_queuedBuild _ _)) ?_
    exact fun _ => Step.carries_bind (Step.carries_change _) fun _ => Step.carries_pure _
  · exact Step.carries_pure _

theorem carries_placeStep (order : Order) : (place server order).Carries P :=
  Step.carries_bind (Step.carries_ofDesk (carries_place _ _ (Free.triggers server))) fun _ =>
    Step.carries_change _

theorem carries_actStep (order : Order) (action : String) :
    (act server order action).Carries P := by
  unfold act
  split
  · refine Step.carries_bind (carries_buildUrl _) fun url => ?_
    exact Step.carries_bind Step.carries_context fun _ => Step.carries_ofDesk (carries_watch _ _)
  · split
    · exact Step.carries_bind (carries_buildUrl _) fun url =>
        Step.carries_ofDesk (carries_showLog _ _ _ _)
    · split
      · exact Step.carries_ofDesk (carries_cancel server _ _ _)
      · split
        · exact Step.carries_bind (carries_placeStep _) fun _ => Step.carries_pure _
        · exact Step.carries_ofDesk (carries_refuse _ _ _)

theorem carries_follow (order : Order) (returns : Bool) :
    (follow server order returns).Carries P := by
  have hperform : ∀ action, (perform server order action).Carries P := fun action =>
    carries_asMenuStep (carries_actStep order action)
  have hstep : (placeAndFollow server order).Carries P := by
    refine Step.carries_bind (carries_placeStep _) fun _ =>
      carries_run FollowUp.translates ?_ (asks server) none
    exact FollowUp.carries_handlers fun action =>
      Step.carries_bind (hperform _) fun _ => Step.carries_pure _
  exact fun s t hst => (hstep _ s t hst).1

theorem carries_jobs (interactive anew : Bool) (jobUrl : Option String) :
    (jobsFor server interactive anew jobUrl).Carries P :=
  carries_jobsFor server _ _ _ (fun _ => Roster.carries_refresh server) fun _ => asks server

theorem carries_rounds (param : String) (k : Nat) (o : BuildOptions) (jobs : List Job)
    (sofar : Built) : (rounds server param k o jobs sofar).Carries P := by
  induction k generalizing o jobs sofar with
  | zero => exact carries_throw _
  | succ k ih =>
    refine carries_bind (carries_onFolder (Recent.onFolder_load _)) fun recent => ?_
    refine carries_bind (o.wish.carries_prepare server _) fun found => ?_
    split
    · refine carries_bind (carries_follow _ _) fun ending => ?_
      split
      · split
        · exact carries_bind (carries_jobs _ _ _) fun _ => ih _ _ _
        · exact carries_bind (carries_pure _) fun _ => ih _ _ _
      · exact carries_pure _
    · exact carries_pure _

theorem carries_build (interactive : Bool) (o : BuildOptions) :
    (build server interactive o).Carries P := by
  have hrounds : ∀ jobs, (do
      rounds server (o.parameter server.settings) ((← get).answers.length + 1) o jobs {} :
        Desk Built).Carries P := fun jobs =>
    carries_answers_bind fun n => carries_rounds _ (n + 1) _ _ _
  refine carries_bind o.carries_check fun _ => ?_
  dsimp only
  split
  · refine carries_bind (carries_jobs _ _ _) fun jobs => ?_
    refine carries_bind (o.wish.carries_single _) fun ⟨job, label⟩ => ?_
    exact carries_bind (carries_place _ _ (Free.triggers server)) fun _ => carries_pure _
  · split
    · exact carries_refuse_bind _ _ _ _
    · split
      · exact carries_bind (carries_pure _) hrounds
      · exact carries_bind (carries_jobs _ _ _) hrounds

/-! ### Actions on a job -/

theorem carries_performOn (job : String) (label : Json) (jobs : Option (List Job))
    (action : String) : (performOn server job label jobs action).Carries P := by
  refine carries_asMenuAction ?_
  unfold actOn
  split
  · exact carries_bind (carries_build _ _) fun _ => carries_pure _
  · split
    · exact carries_showStatus _ _ _
    · split
      · exact carries_watch _ _
      · split
        · exact carries_showLog _ _ _ _
        · split
          · exact carries_cancel server _ _ _
          · split
            · exact carries_rerunLastFailed _ _ _ (Free.triggers server)
            · exact carries_refuse _ _ _

/-! ### Reviewing jobs -/

theorem Wish.carries_pick (wish : Wish) (jobs : List Job) :
    (wish.pick server.settings jobs).Carries P :=
  carries_bind (carries_onFolder (Recent.onFolder_load _)) fun _ =>
    carries_bind (wish.carries_prepare server _) fun _ => carries_pure _

theorem Wish.carries_target (wish : Wish) (interactive : Bool) :
    (wish.target server interactive).Carries P := by
  cases interactive with
  | false => exact wish.carries_targetAlone
  | true =>
    refine carries_bind wish.carries_check fun _ => ?_
    exact carries_bind (carries_jobs _ _ _) fun _ => wish.carries_pick _

theorem carries_review (job : String) (label : Json) (jobs : List Job) :
    (review server job label jobs).Carries P := by
  refine carries_bind (carries_asMenuAction (carries_showStatus _ _ _)) fun _ => ?_
  refine carries_bind (carries_runOn Review.translates ?_ (asks server) _ _) fun _ => carries_pure _
  exact Review.carries_handlers fun action =>
    carries_bind (carries_performOn _ _ _ _) fun _ => carries_pure _

theorem carries_reviews (k : Nat) (wish : Wish) (jobs : List Job) :
    (reviews server k wish jobs).Carries P := by
  induction k generalizing wish jobs with
  | zero => exact carries_throw _
  | succ k ih =>
    refine carries_bind (wish.carries_pick _) fun found => ?_
    split
    · exact carries_pure _
    · refine carries_bind (carries_review _ _ _) fun ending => ?_
      split
      · split
        · exact carries_bind (carries_jobs _ _ _) fun _ => ih _ _
        · exact carries_bind (carries_pure _) fun _ => ih _ _
      · exact carries_pure _

theorem carries_status (interactive nonInteractive : Bool) (wish : Wish) :
    (status server interactive nonInteractive wish).Carries P := by
  cases nonInteractive with
  | true => exact carries_statusAlone _ _
  | false =>
    refine carries_bind wish.carries_check fun _ => ?_
    dsimp only
    split
    · exact carries_refuse_bind _ _ _ _
    · exact carries_bind (carries_jobs _ _ _) fun _ =>
        carries_answers_bind fun n => carries_reviews (n + 1) _ _

/-! ### Listing jobs -/

theorem carries_askSearch : (askSearch server.settings).Carries P := by
  refine carries_say_bind fun text text' => ?_
  refine echoes_bind (echoes_addressed _ text text') fun _ _ _ => ?_
  refine echoes_bind (echoes_say _ _) fun _ _ _ => ?_
  exact echoes_bind (echoes_ask rfl rfl fun _ => asks server rfl) fun _ _ hanswer =>
    hanswer ▸ carries_pure _

theorem carries_browseFrom (jobs : List Job) (k : Nat) (ctx : Browse.Context)
    (start : Option String) : (browseFrom server jobs k ctx start).Carries P := by
  induction k generalizing ctx start with
  | zero => exact carries_throw _
  | succ k ih =>
    refine carries_bind (carries_runOn Browse.translates ?_ (asks server) _ _)
      fun ⟨ending, ctx⟩ => ?_
    · exact Browse.carries_handlers fun action job =>
        carries_bind (carries_performOn _ _ _ _) fun _ => carries_pure _
    · dsimp only
      split
      · exact ih _ _
      · exact carries_pure _

theorem carries_browse (found jobs : List Job) : (browse server found jobs).Carries P :=
  carries_answers_bind (f := fun n => do
      let outcome ← browseFrom server jobs (n + 1)
        { settings := server.settings, jobs := found } none
      pure (outcome == .exitCommand)) fun n =>
    carries_bind (carries_browseFrom _ (n + 1) _ _) fun _ => carries_pure _

theorem carries_searches (jobs : List Job) (k : Nat) (search : Option String) :
    (searches server jobs k search).Carries P := by
  induction k generalizing search with
  | zero => exact carries_throw _
  | succ k ih =>
    have hfound : ∀ wanted, (do
        match wanted with
        | none => pure ()
        | some text =>
          let found ← Desk.ofExcept (Search.filter jobs text)
          if found.isEmpty then
            printError (← Desk.say Notice.noJobsMatch [("query", .str text)])
            printHint (← Desk.say Notice.listTryAgainHint [])
            searches server jobs k none
          else
            printJobs found
            if !(← browse server found jobs) then searches server jobs k none :
        Desk Unit).Carries P := by
      intro wanted
      cases wanted with
      | none => exact carries_pure _
      | some text =>
        refine carries_bind (carries_ofExcept _) fun found => ?_
        split
        · refine carries_say_bind fun _ _ => echoes_bind (echoes_printError _ _) fun _ _ _ => ?_
          refine carries_say_bind fun _ _ => echoes_bind (echoes_printHint _ _) fun _ _ _ => ?_
          exact ih none
        · refine carries_bind (carries_printJobs _) fun _ => ?_
          refine carries_bind (carries_browse _ _) fun _ => ?_
          split
          · exact ih none
          · exact carries_pure _
    unfold searches
    split
    · exact carries_bind (carries_pure _) hfound
    · exact carries_bind carries_askSearch hfound

theorem carries_list (interactive anew : Bool) (search : Option String) :
    (list server interactive anew search).Carries P := by
  cases interactive with
  | false => exact carries_listAlone _ fun _ => Roster.carries_refresh server
  | true =>
    exact carries_bind (carries_jobs _ _ _) fun jobs => carries_answers_bind
      (f := fun n => searches server jobs (n + 2) (given (some (Text.trim (search.getD "")))))
      fun n => carries_searches _ (n + 2) _

/-! ### Stopping a build, and building again -/

theorem carries_stop {interactive : Bool} (wish : Wish) (h : interactive = false →
      ∀ job label, (cancel server job label none).Carries P) :
    (stop server interactive wish).Carries P := by
  refine carries_bind (wish.carries_target _) fun found => ?_
  split
  · refine carries_bind ?_ fun _ => carries_pure _
    cases interactive with
    | true => exact carries_cancel server _ _ _
    | false => exact h rfl _ _
  · exact carries_pure _

theorem carries_rerun (interactive : Bool) (wish : Wish) :
    (rerun server interactive wish).Carries P := by
  refine carries_bind (wish.carries_target _) fun found => ?_
  split
  · exact carries_bind (carries_rerunLastFailed _ _ _ (Free.triggers server)) fun _ =>
      carries_pure _
  · exact carries_pure _

end
end BuildDesk.Command
