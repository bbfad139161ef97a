/-
The commands can be relied on.

Whatever options a command is given, whatever the server replies and whatever stands in the
job file, a run of the command is fair: it ends on every script, and no flow is at a loss as
long as the user answers what is asked.

* `Wish.isFair_target`, `isFair_build`, `isFair_status`, `isFair_list` — the commands;
* `fairFor_rounds`, `fairFor_reviews`, `fairFor_browseFrom`, `fairFor_searches` — their loops:
  a loop that runs out of its rounds has taken an answer in each of them.

Flows run inside the actions of flows, so this goes from the inside out: a build is fair, then
so are the actions on a job, and then the flows that perform them.
-/
import BuildDesk.Command.List
import BuildDesk.Proofs.Command.Shape
import BuildDesk.Proofs.Fair.Tables

namespace BuildDesk.Command

open Desk Console BuildDesk.Flow

variable {E : Event → Prop} {n k : Nat} {s s' : Session}

/-! ### Which job -/

theorem Wish.isFair_check (wish : Wish) : wish.check.IsFair E := by
  unfold Wish.check
  split
  · exact isFair_refuse _ _ _
  · exact isFair_pure _

theorem Wish.isFair_demand (wish : Wish) : wish.demand.IsFair E := by
  unfold Wish.demand
  split
  · exact isFair_refuse _ _ _
  · exact isFair_pure _

theorem Wish.isFair_single (wish : Wish) (jobs : List Job) : (wish.single jobs).IsFair E := by
  unfold Wish.single
  split
  · exact isFair_pure _
  · refine isFair_bind (isFair_ofExcept ?_) fun _ => isFair_pure _
    exact ordinary_bind (Search.ordinary_resolve _ _) (Search.ordinary_unique _)

theorem Wish.isFair_preset [Event.Common E] (wish : Wish) (ctx : Prepare.Context) :
    (wish.preset ctx).IsFair E := by
  unfold Wish.preset
  split
  · exact isFair_pure _
  · exact isFair_pure _
  · rename_i search _ _
    have hordinary := Search.ordinary_resolve search ctx.jobs
    rcases hfound : Search.resolve search ctx.jobs with f | jobs
    · have hf := hordinary f hfound
      cases f with
      | complaint c =>
        simp only [hfound]
        split
        · exact isFair_bind (isFair_printComplaint c) fun _ => isFair_pure _
        · exact isFair_throw hf
      | _ =>
        simp only [hfound]
        exact isFair_throw hf
    · simp only [hfound]
      exact isFair_pure _

/-- The run that prepares a build starts in a state of its flow. -/
theorem knows_start_of_preset {wish : Wish} {ctx c : Prepare.Context} {start : Option String}
    (hnone : ctx.candidates = []) (h : (wish.preset ctx).Yields s (start, c) s') :
    (Prepare.table.state? (Prepare.table.startState start)).isSome = true := by
  obtain ⟨p, hstart, -⟩ := preset_yields hnone h
  rw [hstart, p.state?_name]
  rfl

theorem Wish.isFair_prepare (wish : Wish) {ctx : Prepare.Context} (hnone : ctx.candidates = []) :
    (wish.prepare ctx).IsFair Event.IsAny := by
  intro s
  refine fairAt_bind (wish.isFair_preset ctx s) fun ⟨start, c⟩ s₁ hpreset => ?_
  have hrun := (Prepare.sound (E := Event.IsAny)).isFair_run
    (knows_start_of_preset hnone hpreset) trivial
  exact isFair_bind (isFair_runOn hrun c) (fun _ => isFair_pure _) s₁

theorem Wish.isFair_pick (wish : Wish) (settings : Settings) (jobs : List Job) :
    (wish.pick settings jobs).IsFair Event.IsAny :=
  isFair_bind (Recent.isFair_load _) fun _ =>
    isFair_bind (wish.isFair_prepare rfl) fun _ => isFair_pure _

theorem Wish.isFair_target (wish : Wish) (server : Server) (interactive : Bool) :
    (wish.target server interactive).IsFair Event.IsAny := by
  refine isFair_bind wish.isFair_check fun _ => ?_
  split
  · exact isFair_bind (isFair_jobsFor _ _ _ _) fun _ => wish.isFair_pick _ _
  · refine isFair_bind wish.isFair_demand fun _ => isFair_bind (isFair_jobsFor _ _ _ _) ?_
    exact fun _ => isFair_bind (wish.isFair_single _) fun _ => isFair_pure _

/-! ### Following up -/

theorem isFair_buildUrl [Event.Common E] (server : Server) : (buildUrl server).IsFair E := by
  refine Step.isFair_bind Step.isFair_context fun ctx => ?_
  dsimp only
  split
  · refine Step.isFair_bind (Step.isFair_ofDesk (Server.isFair_queuedBuild _ _)) fun _ => ?_
    exact Step.isFair_bind (Step.isFair_change _) fun _ => Step.isFair_pure _
  · exact Step.isFair_pure _

/-- An action other than to build again is fair whatever happens besides. -/
theorem isFair_act_of_ne [Event.Common E] (server : Server) (order : Order) {action : String}
    (hother : action ≠ "rerun") : (act server order action).IsFair E := by
  unfold act
  split
  · refine Step.isFair_bind (isFair_buildUrl _) fun url => ?_
    exact Step.isFair_bind Step.isFair_context fun _ => Step.isFair_ofDesk (isFair_watch _ _)
  · split
    · exact Step.isFair_bind (isFair_buildUrl _) fun url =>
        Step.isFair_ofDesk (isFair_showLog _ _ _ _)
    · split
      · refine Step.isFair_ofDesk (isFair_cancel _ _ _ ?_)
        rintro ask ⟨⟩ text
        exact isFair_confirm _ _ _
      · split
        · rename_i hrerun
          exact absurd (beq_iff_eq.mp hrerun) hother
        · exact Step.isFair_ofDesk (isFair_refuse _ _ _)

/-- Triggering the build inside of the flow is fair where everything may happen. -/
theorem isFair_placeStep (server : Server) (order : Order) :
    (place server order).IsFair Event.IsAny :=
  Step.isFair_bind (Step.isFair_ofDesk (isFair_place _ _)) fun _ => Step.isFair_change _

theorem isFair_act (server : Server) (order : Order) (action : String) :
    (act server order action).IsFair Event.IsAny := by
  by_cases hrerun : action = "rerun"
  · subst hrerun
    exact Step.isFair_bind (isFair_placeStep _ _) fun _ => Step.isFair_pure _
  · exact isFair_act_of_ne server order hrerun

/-- An action is as fair in its menu. -/
theorem isFair_performing [Event.Common E] {server : Server} {order : Order} {action : String}
    (h : (act server order action).IsFair E) :
    (do return .str (← perform server order action).word : Step FollowUp.Context Json).IsFair E :=
  Step.isFair_bind (isFair_asMenuStep (fun c => Step.isFair_ofDesk (isFair_printComplaint c)) h)
    fun _ => Step.isFair_pure _

/-- The handlers of the follow-up, with the actions that it has. -/
abbrev followUps (server : Server) (order : Order) : Registry FollowUp.Context :=
  FollowUp.handlers fun action => do return .str (← perform server order action).word

theorem followUp_sound (server : Server) (order : Order) :
    Sound Event.IsAny FollowUp.table (followUps server order) :=
  FollowUp.sound (fun _ => Step.performs_word _) fun _ =>
    isFair_performing (isFair_act _ _ _)

theorem isFair_placeAndFollow (server : Server) (order : Order) :
    (placeAndFollow server order).IsFair Event.IsAny :=
  Step.isFair_bind (isFair_placeStep _ _) fun _ =>
    (followUp_sound server order).isFair_run rfl trivial

/-- Following up on a build comes to what it comes to inside of the flow. -/
theorem outcome_follow (server : Server) (order : Order) (returns : Bool) (s : Session) :
    (follow server order returns).outcome s =
      (((placeAndFollow server order).outcome
          { settings := server.settings, label := order.label, returns } s).1.1,
        ((placeAndFollow server order).outcome
          { settings := server.settings, label := order.label, returns } s).2) := rfl

theorem isFair_follow (server : Server) (order : Order) (returns : Bool) :
    (follow server order returns).IsFair Event.IsAny := by
  intro s n
  unfold Desk.FairFor
  rw [outcome_follow]
  exact isFair_placeAndFollow server order _ s n

/-- The menu of the follow-up takes an answer. -/
theorem takes_of_follow {server : Server} {order : Order} {returns : Bool} {ending : Ending}
    (h : (follow server order returns).Yields s ending s') :
    s'.answers.length + 1 ≤ s.answers.length := by
  unfold Desk.Yields at h
  rw [outcome_follow] at h
  obtain ⟨hending, hs'⟩ := Prod.mk.inj h
  have hboth : (placeAndFollow server order).Yields _ s ending _ s' :=
    Prod.ext (Prod.ext hending rfl) hs'
  obtain ⟨_, ctx₁, s₁, hplaced, hrun⟩ := Step.yields_bind.mp hboth
  have hfollowed := takes_of_run (followUp_sound server order).isTame rfl hrun
  have hkept := (isFair_placeStep server order).tame.takes hplaced
  omega

/-! ### Building -/

theorem BuildOptions.isFair_check (o : BuildOptions) : o.check.IsFair E := by
  unfold BuildOptions.check
  refine isFair_bind o.wish.isFair_check fun _ => ?_
  have hlast : (do
      if o.nonInteractive then
        o.wish.demand
        if o.branchName.isNone && !o.defaultBranch then
          Desk.refuse .missingBranch [] (some .missingBranchHint) : Desk Unit).IsFair E := by
    split
    · refine isFair_bind o.wish.isFair_demand fun _ => ?_
      split
      · exact isFair_refuse _ _ _
      · exact isFair_pure _
    · exact isFair_pure _
  dsimp only
  split
  · exact isFair_refuse_bind _ _ _ _
  · split
    · split
      · exact isFair_refuse_bind _ _ _ _
      · exact hlast
    · exact hlast

/-- A loop of builds that runs out of its rounds has taken an answer in each of them. -/
theorem fairFor_rounds (server : Server) (param : String) (k : Nat) (o : BuildOptions)
    (jobs : List Job) (sofar : Built) (s : Session) :
    FairFor Event.IsAny k (rounds server param k o jobs sofar) s := by
  -- A round that goes on has been through the menu of the follow-up.
  induction k generalizing o jobs sofar s with
  | zero => exact fairFor_stalled s
  | succ k ih =>
    refine fairFor_after (Recent.isFair_load _ s) fun recent s₁ _ => ?_
    refine fairFor_after (o.wish.isFair_prepare rfl s₁) fun found s₂ _ => ?_
    split
    · refine fairFor_taking (isFair_follow _ _ _ s₂) (fun _ _ => takes_of_follow)
        fun ending s₃ _ => ?_
      split
      · split
        · exact fairFor_after (isFair_jobsFor _ _ _ _ s₃) fun _ _ _ => ih _ _ _ _
        · exact ih _ _ _ _
      · exact isFair_pure _ _ _
    · exact isFair_pure _ _ _

theorem isFair_buildAtOnce (server : Server) (o : BuildOptions) :
    (buildAtOnce server o).IsFair Event.IsAny := by
  refine isFair_bind (isFair_jobsFor _ _ _ _) fun jobs => ?_
  refine isFair_bind (o.wish.isFair_single _) fun ⟨job, label⟩ => ?_
  exact isFair_bind (isFair_place _ _) fun _ => isFair_pure _

/-- **Building is fair.** -/
theorem isFair_build (server : Server) (interactive : Bool) (o : BuildOptions) :
    (build server interactive o).IsFair Event.IsAny := by
  have hrounds : ∀ jobs, (do
      rounds server (o.parameter server.settings) ((← get).answers.length + 1) o jobs {} :
        Desk Built).IsFair Event.IsAny := fun jobs => isFair_get_bind fun s =>
    fairAt_of_enough (fairFor_rounds _ _ _ _ _ _ s) (Nat.lt_succ_self _)
  refine isFair_bind o.isFair_check fun _ => ?_
  dsimp only
  split
  · exact isFair_buildAtOnce _ _
  · split
    · exact isFair_refuse_bind _ _ _ _
    · split
      · exact isFair_bind (isFair_pure _) hrounds
      · exact isFair_bind (isFair_jobsFor _ _ _ _) hrounds

/-! ### Actions on a job -/

theorem isFair_actOn (server : Server) (job : String) (label : Json) (jobs : Option (List Job))
    (action : String) : (actOn server job label jobs action).IsFair Event.IsAny := by
  unfold actOn
  split
  · exact isFair_bind (isFair_build _ _ _) fun _ => isFair_pure _
  · split
    · exact isFair_showStatus _ _ _
    · split
      · exact isFair_watch _ _
      · split
        · exact isFair_showLog _ _ _ _
        · split
          · refine isFair_cancel _ _ _ ?_
            rintro ask ⟨⟩ text
            exact isFair_confirm _ _ _
          · split
            · exact isFair_rerunLastFailed _ _ _
            · exact isFair_refuse _ _ _

theorem isFair_performOn (server : Server) (job : String) (label : Json)
    (jobs : Option (List Job)) (action : String) :
    (performOn server job label jobs action).IsFair Event.IsAny :=
  isFair_asMenuAction isFair_printComplaint (isFair_actOn _ _ _ _ _)

/-! ### Reviewing -/

/-- The handlers of a review, with the actions that it has. -/
abbrev reviewing (server : Server) (job : String) (label : Json) (jobs : List Job) :
    Registry Review.Context :=
  Review.handlers fun action => do
    return .str (← performOn server job label (some jobs) action).word

theorem reviewing_sound (server : Server) (job : String) (label : Json) (jobs : List Job) :
    Sound Event.IsAny Review.table (reviewing server job label jobs) :=
  Review.sound (fun _ => performs_word _) fun _ =>
    isFair_bind (isFair_performOn _ _ _ _ _) fun _ => isFair_pure _

theorem isFair_review (server : Server) (job : String) (label : Json) (jobs : List Job) :
    (review server job label jobs).IsFair Event.IsAny := by
  refine isFair_bind (isFair_asMenuAction isFair_printComplaint (isFair_showStatus _ _ _)) ?_
  refine fun _ => isFair_bind (isFair_runOn ?_ _) fun _ => isFair_pure _
  exact (reviewing_sound server job label jobs).isFair_run rfl trivial

/-- The menu of a review takes an answer. -/
theorem takes_of_review {server : Server} {job : String} {label : Json} {jobs : List Job}
    {ending : Ending} (h : (review server job label jobs).Yields s ending s') :
    s'.answers.length + 1 ≤ s.answers.length := by
  obtain ⟨_, s₁, hshown, hrest⟩ := yields_bind.mp h
  obtain ⟨⟨ending, ctx⟩, s₂, hrun, hend⟩ := yields_bind.mp hrest
  obtain ⟨-, rfl⟩ := yields_pure.mp hend
  have hkept := (isFair_asMenuAction (E := Event.IsAny) isFair_printComplaint
    (isFair_showStatus _ _ _)).tame.takes hshown
  have htaken := takes_of_run (reviewing_sound server job label jobs).isTame rfl
    (runOn_yields.mp hrun)
  omega

/-- A loop of reviews that runs out of its rounds has taken an answer in each of them. -/
theorem fairFor_reviews (server : Server) (k : Nat) (wish : Wish) (jobs : List Job)
    (s : Session) : FairFor Event.IsAny k (reviews server k wish jobs) s := by
  -- A round that goes on has been through the menu of the review.
  induction k generalizing wish jobs s with
  | zero => exact fairFor_stalled s
  | succ k ih =>
    refine fairFor_after (wish.isFair_pick _ _ s) fun found s₁ _ => ?_
    split
    · exact isFair_pure _ _ _
    · refine fairFor_taking (isFair_review _ _ _ _ s₁) (fun _ _ => takes_of_review)
        fun ending s₂ _ => ?_
      split
      · split
        · exact fairFor_after (isFair_jobsFor _ _ _ _ s₂) fun _ _ _ => ih _ _ _
        · exact ih _ _ _
      · exact isFair_pure _ _ _

/-- **Showing the status is fair.** -/
theorem isFair_status (server : Server) (interactive nonInteractive : Bool) (wish : Wish) :
    (status server interactive nonInteractive wish).IsFair Event.IsAny := by
  have hreviews : ∀ jobs, (do
      reviews server ((← get).answers.length + 1) wish jobs : Desk Unit).IsFair Event.IsAny :=
    fun jobs => isFair_get_bind fun s =>
      fairAt_of_enough (fairFor_reviews _ _ _ _ s) (Nat.lt_succ_self _)
  unfold status
  dsimp only
  split
  · refine isFair_bind (wish.isFair_target _ _) fun found => ?_
    split
    · exact isFair_bind (isFair_showStatus _ _ _) fun _ => isFair_pure _
    · exact isFair_pure _
  · refine isFair_bind wish.isFair_check fun _ => ?_
    split
    · exact isFair_refuse_bind _ _ _ _
    · exact isFair_bind (isFair_jobsFor _ _ _ _) hreviews

/-! ### Browsing -/

/-- The handlers of browsing, with the actions that it has. -/
abbrev browsing (server : Server) (jobs : List Job) : Registry Browse.Context :=
  Browse.handlers fun action job => do
    return .str (← performOn server job.url job.displayName (some jobs) action).word

theorem browsing_sound (server : Server) (jobs : List Job) :
    Sound Event.IsAny Browse.table (browsing server jobs) :=
  Browse.sound (fun _ _ => performs_word _) fun _ _ =>
    isFair_bind (isFair_performOn _ _ _ _ _) fun _ => isFair_pure _

/-- A loop of browsing that runs out of its rounds has taken an answer in each of them. -/
theorem fairFor_browseFrom (server : Server) (jobs : List Job) (k : Nat) (ctx : Browse.Context)
    {start : Option String} (hstart : start = none ∨ start = some "select_job") (s : Session) :
    FairFor Event.IsAny k (browseFrom server jobs k ctx start) s := by
  have hsound := browsing_sound server jobs
  -- Whichever way the flow is entered, its first state is a menu, and that takes an answer.
  have hname : Browse.table.startState start = "select_job" := by
    rcases hstart with rfl | rfl
    · rfl
    · rfl
  induction k generalizing ctx start s with
  | zero => exact fairFor_stalled s
  | succ k ih =>
    have hrun : (Browse.table.runOn (browsing server jobs) ctx start).IsFair Event.IsAny :=
      isFair_runOn (hsound.isFair_run (by rw [hname]; rfl) trivial) ctx
    refine fairFor_taking (hrun s) (fun ⟨ending, ctx'⟩ s₁ hyields => ?_)
      fun ⟨ending, ctx'⟩ s₁ _ => ?_
    · exact takes_of_run hsound.isTame (by rw [hname]; rfl) (runOn_yields.mp hyields)
    · dsimp only
      split
      · exact ih ctx' (.inr rfl) s₁ rfl
      · exact isFair_pure _ _ _

theorem isFair_browse (server : Server) (found jobs : List Job) :
    (browse server found jobs).IsFair Event.IsAny :=
  isFair_get_bind fun s => fairAt_bind
    (fairAt_of_enough (fairFor_browseFrom _ _ _ _ (.inl rfl) s) (Nat.lt_succ_self _))
    fun _ s₁ _ => isFair_pure _ s₁

/-! ### Listing -/

theorem isFair_printJobs (jobs : List Job) : (printJobs jobs).IsFair Event.IsAny := by
  unfold printJobs
  split
  · exact isFair_bind (isFair_say _ _) fun _ => isFair_printMarkup _
  · refine isFair_bind (isFair_say _ _) fun _ => isFair_bind (isFair_say _ _) fun _ => ?_
    exact isFair_bind (isFair_say _ _) fun _ => isFair_printTable _ _ _

theorem isFair_askSearch (settings : Settings) : (askSearch settings).IsFair Event.IsAny := by
  refine isFair_bind (isFair_say _ _) fun _ => isFair_bind (isFair_addressed _ _) fun _ => ?_
  refine isFair_bind (isFair_say _ _) fun _ => isFair_bind (isFair_ask rfl) fun _ => ?_
  exact isFair_pure _

/-- Asking for a search takes an answer. -/
theorem takes_of_askSearch {settings : Settings} {search : Option String}
    (h : (askSearch settings).Yields s search s') :
    s'.answers.length + 1 ≤ s.answers.length := by
  obtain ⟨said, s₁, hsaid, h⟩ := yields_bind.mp h
  obtain ⟨message, s₂, hmessage, h⟩ := yields_bind.mp h
  obtain ⟨placeholder, s₃, hplaceholder, h⟩ := yields_bind.mp h
  obtain ⟨answer, s₄, hasked, h⟩ := yields_bind.mp h
  obtain ⟨-, rfl⟩ := yields_pure.mp h
  have hkept := (isFair_say (E := Event.IsAny) _ _).tame.takes hsaid
  have hkept₁ := (isFair_addressed (E := Event.IsAny) _ _).tame.takes hmessage
  have hkept₂ := (isFair_say (E := Event.IsAny) _ _).tame.takes hplaceholder
  obtain ⟨rest, hanswers, rfl⟩ := yields_ask.mp hasked
  rw [hanswers, List.length_cons] at hkept₂
  dsimp only
  omega

/-- What is done with a search takes an answer in each round that it leaves. -/
theorem fairFor_search (server : Server) (jobs : List Job) (text : String)
    (hnext : ∀ s, FairFor Event.IsAny k (searches server jobs k none) s) (s : Session) :
    FairFor Event.IsAny k (do
      let found ← Desk.ofExcept (Search.filter jobs text)
      if found.isEmpty then
        printError (← Desk.say Notice.noJobsMatch [("query", .str text)])
        printHint (← Desk.say Notice.listTryAgainHint [])
        searches server jobs k none
      else
        printJobs found
        if !(← browse server found jobs) then searches server jobs k none) s := by
  refine fairFor_after (isFair_ofExcept (Search.ordinary_filter _ _) s) fun found s₁ _ => ?_
  split
  · refine fairFor_after (isFair_say _ _ s₁) fun _ s₂ _ => ?_
    refine fairFor_after (isFair_printError _ s₂) fun _ s₃ _ => ?_
    refine fairFor_after (isFair_say _ _ s₃) fun _ s₄ _ => ?_
    exact fairFor_after (isFair_printHint _ s₄) fun _ s₅ _ => hnext s₅
  · refine fairFor_after (isFair_printJobs _ s₁) fun _ s₂ _ => ?_
    refine fairFor_after (isFair_browse _ _ _ s₂) fun out s₃ _ => ?_
    split
    · exact hnext s₃
    · exact isFair_pure _ _ _

/-- A loop of searches that runs out of its rounds has taken an answer in each of them that it
began with a question. -/
theorem fairFor_searches (server : Server) (jobs : List Job) (k : Nat) (s : Session) :
    FairFor Event.IsAny k (searches server jobs k none) s ∧
      ∀ text, FairFor Event.IsAny k (searches server jobs (k + 1) (some text)) s := by
  have hloop : ∀ s, FairFor Event.IsAny k (searches server jobs k none) s := by
    induction k with
    | zero => exact fairFor_stalled
    | succ k ih =>
      intro s
      refine fairFor_taking (isFair_askSearch _ s) (fun _ _ => takes_of_askSearch)
        fun wanted s₁ _ => ?_
      cases wanted with
      | none => exact isFair_pure _ _ _
      | some text => exact fairFor_search server jobs text ih s₁
  exact ⟨hloop s, fun text => fairFor_search server jobs text hloop s⟩

/-- **Listing is fair.** -/
theorem isFair_list (server : Server) (interactive anew : Bool) (search : Option String) :
    (list server interactive anew search).IsFair Event.IsAny := by
  refine isFair_bind (isFair_jobsFor _ _ _ _) fun jobs => ?_
  split
  · refine isFair_get_bind fun s => ?_
    rcases given (some (Text.trim (search.getD ""))) with _ | text
    · exact fairAt_of_enough (fairFor_searches server jobs _ s).1 (by omega)
    · exact fairAt_of_enough ((fairFor_searches server jobs _ s).2 text) (Nat.lt_succ_self _)
  · exact isFair_bind (isFair_ofExcept (Search.ordinary_filter _ _)) isFair_printJobs

end BuildDesk.Command
