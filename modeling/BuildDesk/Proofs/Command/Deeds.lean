/-
What a run that builds has done.

Most of what a run does has no part in which builds are placed: it prints, asks, reads, waits,
and stops builds.  Such events are quiet (`Event.IsQuiet`).  What remains are deeds, and a run
is a sequence of them with nothing but quiet events in between:

* `Deed` — a build was prepared, the user wished for the same build once more, an order was
  placed;
* `Does`, `Did` — what a deed is, and the deeds that lead from one session to another;
* `Exact` — each finished preparation and each wish is followed at once by placing that build,
  and nothing else is placed; a preparation that comes to nothing is the last deed;
* `does_prepare`, `confirmed_of_prepared` — a preparation is a deed, and its order is what the
  user confirmed.
-/
import BuildDesk.Proofs.Command.Placing
import BuildDesk.Proofs.Fair.Commands

namespace BuildDesk.Command

open Desk BuildDesk.Flow

/-- What a run does about builds. -/
inductive Deed
  /-- A build was prepared with these options; what came of it is a build or nothing. -/
  | prepared (o : BuildOptions) (found : Option Order)
  /-- The user wished for the same build once more. -/
  | wished
  /-- The server was asked to queue a build, and agreed or did not. -/
  | placed (order : Order) (agreed : Bool)

/-- The build that a preparation comes to: when it is complete and a job is selected, that job
with the parameters and the branch of the context that it leaves. -/
def orderAfter (ending : Ending) (c : Prepare.Context) : Option Order :=
  if ending.outcome = .complete then (Wish.chosen c).map fun (url, label) => orderOf c url label
  else none

/-- From the one session to the other a preparation was begun once, and nothing else was. -/
def BeginsOnce (s s' : Session) : Prop :=
  ∃ s₁ start, s.Since Event.IsQuiet s₁ ∧
    { s₁ with log := .start Prepare.table.id start :: s₁.log : Session }.Since Event.IsQuiet s'

/-- The deed leads from the one session to the other.  The branch of prepared builds is given
as the parameter `param`. -/
inductive Does (server : Server) (param : String) : Session → Deed → Session → Prop
  | prepares {o jobs recent s ending c' s'} (hbegins : BeginsOnce s s')
      (hprepares : o.wish.Prepares (o.context server.settings param jobs recent) s ending c' s') :
      Does server param s (.prepared o (orderAfter ending c')) s'
  | abandons {o jobs recent s f s'} (hbegins : BeginsOnce s s')
      (hfails : (o.wish.prepare (o.context server.settings param jobs recent)).Fails s f s') :
      Does server param s (.prepared o none) s'
  | wishes {s} : Does server param s .wished { s with
      log := .step FollowUp.table.id "action_menu" (selected "rerun") "run_action" :: s.log }
  | places {order agreed s} (hagreed : agreed = true ↔ order.Agrees server s) :
      Does server param s (.placed order agreed) ((order.place server).outcome s).2

/-- The deeds that lead from the one session to the other, in order; besides them nothing
happened but quiet events. -/
inductive Did (server : Server) (param : String) : Session → List Deed → Session → Prop
  | quiet {s s'} (h : s.Since Event.IsQuiet s') : Did server param s [] s'
  | deed {s s₁ s₂ deed deeds s'} (h : s.Since Event.IsQuiet s₁)
      (hdoes : Does server param s₁ deed s₂) (rest : Did server param s₂ deeds s') :
      Did server param s (deed :: deeds) s'

/-- Builds of an order placed on the user's wishes: each wish is followed by placing it. -/
inductive Again (order : Order) : List Deed → Prop
  | none : Again order []
  | once {agreed rest} (h : Again order rest) :
      Again order (.wished :: .placed order agreed :: rest)

/-- From options on, every build that was prepared is placed at once and then on every wish,
before the next is prepared without the options about the job and its inputs. -/
inductive Exact : BuildOptions → List Deed → Prop
  | nothing {o} : Exact o []
  | left {o} : Exact o [.prepared o none]
  | built {o order agreed more rest} (hmore : Again order more) (hrest : Exact o.again rest) :
      Exact o (.prepared o (some order) :: .placed order agreed :: (more ++ rest))

variable {server : Server} {param : String} {o : BuildOptions} {order : Order} {agreed : Bool}
variable {deeds deeds' : List Deed} {s s₁ s₂ s' : Session}

namespace Did

theorem after (h : s.Since Event.IsQuiet s₁) (hdid : Did server param s₁ deeds s') :
    Did server param s deeds s' := by
  cases hdid with
  | quiet hquiet => exact .quiet (h.trans hquiet)
  | deed hquiet hdoes rest => exact .deed (h.trans hquiet) hdoes rest

theorem trans (h : Did server param s deeds s₁) (hdid : Did server param s₁ deeds' s') :
    Did server param s (deeds ++ deeds') s' := by
  induction h with
  | quiet hquiet => exact hdid.after hquiet
  | deed hquiet hdoes _ ih => exact .deed hquiet hdoes (ih hdid)

theorem single {deed : Deed} (h : Does server param s deed s₁)
    (hdid : Did server param s₁ deeds s') : Did server param s (deed :: deeds) s' :=
  .deed (.refl s) h hdid

end Did

theorem Again.append {more : List Deed} (h : Again order deeds) (hmore : Again order more) :
    Again order (deeds ++ more) := by
  induction h with
  | none => exact hmore
  | once _ ih => exact .once ih

/-! ### Preparing -/

/-- A run that prepares a build begins once, unless it fails before. -/
theorem begins_of_prepare (wish : Wish) (ctx : Prepare.Context) (hnone : ctx.candidates = [])
    (s : Session) :
    (∃ f, (wish.prepare ctx).Fails s f ((wish.prepare ctx).outcome s).2 ∧
      s.Since Event.IsQuiet ((wish.prepare ctx).outcome s).2) ∨
    BeginsOnce s ((wish.prepare ctx).outcome s).2 := by
  have hbefore := (wish.isFair_preset (E := Event.IsQuiet) ctx s 0).since
  unfold Desk.Fails Wish.prepare
  rw [outcome_bind]
  rcases hpreset : (wish.preset ctx).outcome s with ⟨f | ⟨start, c⟩, s₁⟩
  · rw [hpreset] at hbefore
    exact .inl ⟨f, rfl, hbefore⟩
  · rw [hpreset] at hbefore
    refine .inr ⟨s₁, Prepare.table.startState start, hbefore, ?_⟩
    -- the run logs its start, and what it goes on to do is quiet
    have hrun := (Prepare.sound (E := Event.IsQuiet)).since_run
      (knows_start_of_preset hnone hpreset) c s₁
    dsimp only
    rw [outcome_bind, outcome_runOn]
    rcases hout : (Prepare.table.run Prepare.handlers start).outcome c s₁
      with ⟨⟨f | ending, c'⟩, s'⟩
    · rw [hout] at hrun
      exact hrun
    · rw [hout] at hrun
      exact hrun

/-- A preparation that ends is a deed. -/
theorem does_prepare {jobs : List Job} {recent : List RecentJob} {found : Option Prepare.Context}
    (h : (o.wish.prepare (o.context server.settings param jobs recent)).Yields s found s') :
    Does server param s (.prepared o (found.bind fun c =>
      (Wish.chosen c).map fun (url, label) => orderOf c url label)) s' := by
  have hleft : ((o.wish.prepare (o.context server.settings param jobs recent)).outcome s).2 = s' :=
    congrArg Prod.snd h
  have hbegins : BeginsOnce s s' := by
    rcases begins_of_prepare o.wish (o.context server.settings param jobs recent) rfl s with
      ⟨f, hfails, -⟩ | hbegins
    · exact absurd (h.symm.trans hfails) (by simp)
    · exact hleft ▸ hbegins
  obtain ⟨ending, c, hprepares, rfl⟩ := prepares_of_prepare h
  have hfound : (if ending.outcome == .complete && (Wish.chosen c).isSome then some c
      else none).bind (fun c => (Wish.chosen c).map fun (url, label) => orderOf c url label) =
        orderAfter ending c := by
    unfold orderAfter
    by_cases hcomplete : ending.outcome = .complete
    · rcases hchosen : Wish.chosen c with _ | job
      · simp [hcomplete]
      · simp [hcomplete, hchosen]
    · simp [hcomplete]
  rw [hfound]
  exact .prepares hbegins hprepares

/-- A preparation that fails has come to nothing, if it was begun. -/
theorem did_of_prepare_fails {jobs : List Job} {recent : List RecentJob} {f : Fault}
    (h : (o.wish.prepare (o.context server.settings param jobs recent)).Fails s f s') :
    ∃ deeds, Did server param s deeds s' ∧ Exact o deeds ∧ ∀ order, .placed order true ∉ deeds := by
  have hleft : ((o.wish.prepare (o.context server.settings param jobs recent)).outcome s).2 = s' :=
    congrArg Prod.snd h
  rcases begins_of_prepare o.wish (o.context server.settings param jobs recent) rfl s with
    ⟨g, -, hquiet⟩ | hbegins
  · exact ⟨[], .quiet (hleft ▸ hquiet), .nothing, by simp⟩
  · exact ⟨[.prepared o none], .single (.abandons (hleft ▸ hbegins) h) (.quiet (.refl _)), .left,
      by simp⟩

/-- The order is the build that the context of a preparation describes. -/
structure Order.ConfirmedBy (order : Order) (c : Prepare.Context) : Prop where
  job : Wish.chosen c = some (order.job, order.label)
  params : order.params = c.parameters
  branch : order.branch = if c.defaultBranch then none else c.branch

/-- A build was prepared only when the user confirmed it to the end. -/
theorem confirmed_of_prepared (h : Does server param s (.prepared o (some order)) s') :
    ∃ jobs recent ending c,
      o.wish.Prepares (o.context server.settings param jobs recent) s ending c s' ∧
      ending.outcome = .complete ∧ order.ConfirmedBy c := by
  generalize hfound : some order = found at h
  cases h with
  | abandons _ _ => cases hfound
  | @prepares _ jobs recent _ ending c _ _ hprepares =>
    refine ⟨jobs, recent, ending, c, hprepares, ?_⟩
    unfold orderAfter at hfound
    split at hfound
    · rename_i hcomplete
      obtain ⟨⟨url, label⟩, hchosen, rfl⟩ := Option.map_eq_some_iff.mp hfound.symm
      exact ⟨hcomplete, hchosen, rfl, rfl⟩
    · cases hfound

end BuildDesk.Command
