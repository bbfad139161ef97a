/-
No action on a job looks at the log.

What was logged before an action makes no difference to what the action asks, sends, writes
and comes to (`overlooks_performOn`).  So an action goes on in the same way after any two
histories that leave the same answers, replies and job file.

Flows run inside the actions of flows, so this goes from the inside out: preparing a build and
following it up, building, and then the actions on a job.
-/
import BuildDesk.Command.Status
import BuildDesk.Proofs.Aside.Flows

namespace BuildDesk.Command

open Desk Console BuildDesk.Flow

variable {φ : Folder → Folder} {old : List Event}

/-! ### Preparing a build -/

theorem Wish.overlooks_check (wish : Wish) : wish.check.Overlooks φ old := by
  unfold Wish.check
  split
  · exact overlooks_refuse _ _ _
  · exact overlooks_pure _

theorem Wish.overlooks_demand (wish : Wish) : wish.demand.Overlooks φ old := by
  unfold Wish.demand
  split
  · exact overlooks_refuse _ _ _
  · exact overlooks_pure _

theorem Wish.overlooks_single (wish : Wish) (jobs : List Job) :
    (wish.single jobs).Overlooks φ old := by
  unfold Wish.single
  split
  · exact overlooks_pure _
  · exact overlooks_bind (overlooks_ofExcept _) fun _ => overlooks_pure _

theorem Wish.overlooks_preset (wish : Wish) (ctx : Prepare.Context) :
    (wish.preset ctx).Overlooks φ old := by
  unfold Wish.preset
  split
  · exact overlooks_pure _
  · exact overlooks_pure _
  · dsimp only
    split
    · exact overlooks_pure _
    · split
      · exact overlooks_bind (overlooks_printComplaint _) fun _ => overlooks_pure _
      · exact overlooks_throw _
    · exact overlooks_throw _

theorem Wish.overlooks_prepare (wish : Wish) (ctx : Prepare.Context) :
    (wish.prepare ctx).Overlooks id old :=
  overlooks_bind (wish.overlooks_preset ctx) fun _ =>
    overlooks_bind (overlooks_runOn Prepare.overlooks_handlers _ _) fun _ => overlooks_pure _

/-! ### Following up -/

theorem overlooks_buildUrl (server : Server) : (buildUrl server).Overlooks φ old := by
  refine Step.overlooks_bind Step.overlooks_context fun ctx => ?_
  dsimp only
  split
  · refine Step.overlooks_bind (Step.overlooks_ofDesk (Server.overlooks_queuedBuild _ _)) ?_
    exact fun _ => Step.overlooks_bind (Step.overlooks_change _) fun _ => Step.overlooks_pure _
  · exact Step.overlooks_pure _

theorem overlooks_placeStep (server : Server) (order : Order) :
    (place server order).Overlooks id old :=
  Step.overlooks_bind (Step.overlooks_ofDesk (overlooks_place _ _)) fun _ =>
    Step.overlooks_change _

theorem overlooks_actStep (server : Server) (order : Order) (action : String) :
    (act server order action).Overlooks id old := by
  unfold act
  split
  · refine Step.overlooks_bind (overlooks_buildUrl _) fun url => ?_
    exact Step.overlooks_bind Step.overlooks_context fun _ =>
      Step.overlooks_ofDesk (overlooks_watch _ _)
  · split
    · exact Step.overlooks_bind (overlooks_buildUrl _) fun url =>
        Step.overlooks_ofDesk (overlooks_showLog _ _ _ _)
    · split
      · refine Step.overlooks_ofDesk (overlooks_cancel _ _ _ ?_)
        rintro ask ⟨⟩ text
        exact overlooks_confirm _ _ _
      · split
        · exact Step.overlooks_bind (overlooks_placeStep _ _) fun _ => Step.overlooks_pure _
        · exact Step.overlooks_ofDesk (overlooks_refuse _ _ _)

theorem overlooks_perform (server : Server) (order : Order) (action : String) :
    (perform server order action).Overlooks id old :=
  overlooks_asMenuStep (fun c => Step.overlooks_ofDesk (overlooks_printComplaint c))
    (overlooks_actStep _ _ _)

theorem overlooks_followFlow (server : Server) (order : Order) (returns : Bool) :
    (follow server order returns).Overlooks id old := by
  have hstep : (placeAndFollow server order).Overlooks id old := by
    refine Step.overlooks_bind (overlooks_placeStep _ _) fun _ => overlooks_run ?_ none
    exact FollowUp.overlooks_handlers fun action =>
      Step.overlooks_bind (overlooks_perform _ _ _) fun _ => Step.overlooks_pure _
  intro s
  have hout : ∀ t, (follow server order returns).outcome t =
      (((placeAndFollow server order).outcome
          { settings := server.settings, label := order.label, returns } t).1.1,
        ((placeAndFollow server order).outcome
          { settings := server.settings, label := order.label, returns } t).2) := fun _ => rfl
  rw [hout, hout, hstep]

/-! ### Building -/

theorem BuildOptions.overlooks_check (o : BuildOptions) : o.check.Overlooks φ old := by
  have hlast : (do
      if o.nonInteractive then
        o.wish.demand
        if o.branchName.isNone && !o.defaultBranch then
          Desk.refuse .missingBranch [] (some .missingBranchHint) : Desk Unit).Overlooks φ old := by
    split
    · refine overlooks_bind o.wish.overlooks_demand fun _ => ?_
      split
      · exact overlooks_refuse _ _ _
      · exact overlooks_pure _
    · exact overlooks_pure _
  unfold BuildOptions.check
  refine overlooks_bind o.wish.overlooks_check fun _ => ?_
  dsimp only
  split
  · exact overlooks_refuse_bind _ _ _ _
  · split
    · split
      · exact overlooks_refuse_bind _ _ _ _
      · exact hlast
    · exact hlast

theorem overlooks_rounds (server : Server) (param : String) (k : Nat) (o : BuildOptions)
    (jobs : List Job) (sofar : Built) :
    (rounds server param k o jobs sofar).Overlooks id old := by
  induction k generalizing o jobs sofar with
  | zero => exact overlooks_throw _
  | succ k ih =>
    refine overlooks_bind (Recent.onFolder_load _).overlooks fun recent => ?_
    refine overlooks_bind (o.wish.overlooks_prepare _) fun found => ?_
    split
    · refine overlooks_bind (overlooks_followFlow _ _ _) fun ending => ?_
      split
      · split
        · exact overlooks_bind (overlooks_jobsFor _ _ _ _) fun _ => ih _ _ _
        · exact overlooks_bind (overlooks_pure _) fun _ => ih _ _ _
      · exact overlooks_pure _
    · exact overlooks_pure _

theorem overlooks_buildCommand (server : Server) (interactive : Bool) (o : BuildOptions) :
    (build server interactive o).Overlooks id old := by
  have hrounds : ∀ jobs, (do
      rounds server (o.parameter server.settings) ((← get).answers.length + 1) o jobs {} :
        Desk Built).Overlooks id old := fun jobs =>
    overlooks_get_bind (fun s => overlooks_rounds _ _ _ _ _ _) fun _ => rfl
  refine overlooks_bind o.overlooks_check fun _ => ?_
  dsimp only
  split
  · refine overlooks_bind (overlooks_jobsFor _ _ _ _) fun jobs => ?_
    refine overlooks_bind (o.wish.overlooks_single _) fun ⟨job, label⟩ => ?_
    exact overlooks_bind (overlooks_place _ _) fun _ => overlooks_pure _
  · split
    · exact overlooks_refuse_bind _ _ _ _
    · split
      · exact overlooks_bind (overlooks_pure _) hrounds
      · exact overlooks_bind (overlooks_jobsFor _ _ _ _) hrounds

/-! ### Actions on a job -/

/-- **No action on a job looks at the log.** -/
theorem overlooks_performOn (server : Server) (job : String) (label : Json)
    (jobs : Option (List Job)) (action : String) :
    (performOn server job label jobs action).Overlooks id old := by
  refine overlooks_asMenuAction overlooks_printComplaint ?_
  unfold actOn
  split
  · exact overlooks_bind (overlooks_buildCommand _ _ _) fun _ => overlooks_pure _
  · split
    · exact overlooks_showStatus _ _ _
    · split
      · exact overlooks_watch _ _
      · split
        · exact overlooks_showLog _ _ _ _
        · split
          · refine overlooks_cancel _ _ _ ?_
            rintro ask ⟨⟩ text
            exact overlooks_confirm _ _ _
          · split
            · exact overlooks_rerunLastFailed _ _ _
            · exact overlooks_refuse _ _ _

end BuildDesk.Command
