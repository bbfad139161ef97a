/-
Browsing is one run.

The command browses in a loop of runs: a run that ends at the root away from the jobs is followed
by one that starts at the jobs, with the job and the action that were picked last still in its
context.  Whatever the user answers and the actions come to, this is a single run of the flow in
which every such transition leads back to the jobs (`browse_is_one_run`):

* `oneRun` — the flow with its transitions turned home;
* `browseWith`, `browse_eq` — browsing with any way to perform actions, and that of the command;
* `Browse.returns`, `returns_oneRun` — both flows are sound, and their runs come to an end;
* `outcome_of_ends` — browsing ends by leaving the command or at the root.

What is asked, requested and shown is read off the log of a session, so runs that log the same,
but for the steps of the flow itself, ask, request and show the same.
-/
import BuildDesk.Proofs.Aside.Commands
import BuildDesk.Proofs.Command.Reliable
import BuildDesk.Proofs.Flow.Homing

namespace BuildDesk

/-- The state of browsing in which a job is picked. -/
abbrev Flow.Browse.home : String := "select_job"

/-- Browsing as one run: every transition to the root from elsewhere leads to the jobs. -/
def Flow.Browse.oneRun : Flow.Definition Flow.Browse.Context :=
  Flow.Browse.table.homing Flow.Browse.home

namespace Flow

variable {κ : Type} {d : Definition κ} {r : Registry κ}

/-- The prompts of a flow stay as they are. -/
theorem Definition.IsOrdinary.homing (h : d.IsOrdinary) (home : String) :
    (d.homing home).IsOrdinary := by
  intro entry hentry prompt hprompt
  obtain ⟨⟨name, state⟩, hmem, rfl⟩ := List.mem_map.mp hentry
  exact h _ hmem prompt hprompt

namespace Browse

variable {perform : String → Job → Desk Json}

theorem checked_oneRun (perform : String → Job → Desk Json) :
    problems oneRun (some (handlers perform)) = [] := by
  with_unfolding_all rfl

theorem shallow_oneRun : oneRun.IsShallow := by
  unfold Definition.IsShallow
  decide +kernel

theorem returns (h : ∀ action job, (perform action job).Tame) :
    table.Returns (handlers perform) :=
  returns_of_shallow (checked perform) shallow ordinary (isTame_handlers h)

theorem returns_oneRun (h : ∀ action job, (perform action job).Tame) :
    oneRun.Returns (handlers perform) :=
  returns_of_shallow (checked_oneRun perform) shallow_oneRun (ordinary.homing home)
    (isTame_handlers h)

/-- Browsing ends by leaving the command, or at the root. -/
theorem outcome_of_ends {a b : Position Context} {outcome : Outcome}
    (h : Ends table (handlers perform) a outcome b) :
    outcome = .exitCommand ∨ outcome = .root := by
  have hall : (table.states.all fun entry => entry.2.transitions.all fun transition =>
      (Outcome.ofWord? transition.2).all fun o => o == .exitCommand || o == .root) = true := by
    decide +kernel
  obtain ⟨⟨event, state, s, hstate, htarget, -⟩, hout⟩ := h
  have hstates := List.all_eq_true.mp hall _ (mem_states_of_state? hstate)
  have htargets := List.all_eq_true.mp hstates _ (mem_of_lookup htarget)
  dsimp only at htargets
  rw [hout, Option.all_some, Bool.or_eq_true, beq_iff_eq, beq_iff_eq] at htargets
  exact htargets

end Browse
end Flow

namespace Command

open BuildDesk.Flow

/-- Browsing with a way to perform actions; says whether the user wants to leave the command. -/
def browseWith (perform : String → Job → Desk Json) (ctx : Browse.Context) : Desk Bool := do
  let outcome ← Browse.table.loop (Browse.handlers perform) Browse.home
    ((← get).answers.length + 1) ctx none
  pure (outcome == .exitCommand)

/-- The way in which the command performs actions. -/
def performing (server : Server) (jobs : List Job) (action : String) (job : Job) : Desk Json := do
  return .str (← performOn server job.url job.displayName (some jobs) action).word

theorem browseFrom_eq (server : Server) (jobs : List Job) (more : Nat) (ctx : Browse.Context)
    (start : Option String) : browseFrom server jobs more ctx start =
      Browse.table.loop (Browse.handlers (performing server jobs)) Browse.home more ctx start := by
  induction more generalizing ctx start with
  | zero => rfl
  | succ more ih =>
    rw [browseFrom, Definition.loop]
    congr 1
    funext ⟨ending, ctx⟩
    dsimp only
    rw [ih]

/-- The command browses in this way. -/
theorem browse_eq (server : Server) (found jobs : List Job) :
    browse server found jobs =
      browseWith (performing server jobs) { settings := server.settings, jobs := found } := by
  unfold browse browseWith
  simp only [browseFrom_eq]

theorem tame_performing (server : Server) (jobs : List Job) (action : String) (job : Job) :
    (performing server jobs action job).Tame :=
  (Desk.isFair_bind (isFair_performOn _ _ _ _ _) fun _ =>
    Desk.isFair_pure (E := Event.IsAny) _).tame

theorem ignoresLog_performing (server : Server) (jobs : List Job) (action : String) (job : Job)
    (old : List Event) : (performing server jobs action job).Overlooks id old :=
  Desk.overlooks_bind (overlooks_performOn _ _ _ _ _) fun _ => Desk.overlooks_pure _

/-! ### The loop and the run -/

/-- What browsing comes to, and what the run comes to: the user leaves the command just when the
run does, and is asked for another search just when the run ends at the root among the jobs. -/
inductive EndsAlike :
    Except Fault Bool × Session → Except Fault (Ending × Browse.Context) × Session → Prop
  | leaves {s s' : Session} {state : String} {ctx : Browse.Context}
      (hsame : s.SameBut Browse.table.id s') :
      EndsAlike (.ok true, s) (.ok (⟨.exitCommand, state⟩, ctx), s')
  | searches {s s' : Session} {ctx : Browse.Context} (hsame : s.SameBut Browse.table.id s') :
      EndsAlike (.ok false, s) (.ok (⟨.root, Browse.home⟩, ctx), s')
  | fails {s s' : Session} {f : Fault} (hsame : s.SameBut Browse.table.id s') :
      EndsAlike (.error f, s) (.error f, s')

/-- Browsing from a context is the one run from it: they come by the same states with the same
contexts, one by one, and end alike. -/
structure IsOneRun (perform : String → Job → Desk Json) (ctx : Browse.Context) (s : Session) :
    Prop where
  onward : ∀ n a,
    Steps (Goes Browse.table (Browse.handlers perform) Browse.home) n
      (Browse.table.startAt Browse.home ctx s) a →
    ∃ a', Steps (Leads Browse.oneRun (Browse.handlers perform)) n
      (Browse.table.startAt Browse.home ctx s) a' ∧ a.Same Browse.table.id a'
  back : ∀ n a',
    Steps (Leads Browse.oneRun (Browse.handlers perform)) n
      (Browse.table.startAt Browse.home ctx s) a' →
    ∃ a, Steps (Goes Browse.table (Browse.handlers perform) Browse.home) n
      (Browse.table.startAt Browse.home ctx s) a ∧ a'.Same Browse.table.id a
  ends : EndsAlike ((browseWith perform ctx).outcome s)
    ((Browse.oneRun.runOn (Browse.handlers perform) ctx none).outcome s)

section

variable {perform : String → Job → Desk Json} {ctx : Browse.Context} {s : Session}

/-- Browsing and the run end alike. -/
theorem endsAlike (htame : ∀ action job, (perform action job).Tame)
    (hblind : ∀ action job old, (perform action job).Overlooks id old) :
    EndsAlike ((browseWith perform ctx).outcome s)
      ((Browse.oneRun.runOn (Browse.handlers perform) ctx none).outcome s) := by
  have hr : (Browse.handlers perform).IgnoresLog := fun old =>
    Browse.overlooks_handlers fun action job => hblind action job old
  have hnamed : Browse.home ≠ "" := by decide
  have hloop : (browseWith perform ctx).outcome s =
      (Browse.table.loop (Browse.handlers perform) Browse.home (s.answers.length + 1) ctx none >>=
        fun outcome => pure (outcome == .exitCommand)).outcome s := rfl
  rw [hloop, Desk.outcome_bind]
  rcases hout : (Browse.table.loop (Browse.handlers perform) Browse.home (s.answers.length + 1)
    ctx none).outcome s with ⟨f | outcome, s'⟩
  · have hf : f ≠ .stalled := loop_ne_stalled (Browse.returns htame) (Browse.isTame_handlers htame)
      hnamed rfl rfl (Nat.lt_succ_self _) hout
    obtain ⟨s'', hfails, hsame⟩ := homing_of_loop_fails hr rfl hnamed (Browse.returns htame)
      (Browse.returns_oneRun htame) hf hout
    have hrun : (Browse.oneRun.runOn (Browse.handlers perform) ctx none).outcome s =
      (.error f, s'') := hfails
    rw [hrun]
    exact .fails hsame
  · obtain ⟨state, ctx', s'', hyields, hroot, hsame⟩ :=
      homing_of_loop hr rfl hnamed (Browse.returns_oneRun htame) hout
    have hrun : (Browse.oneRun.runOn (Browse.handlers perform) ctx none).outcome s =
      (.ok (⟨outcome, state⟩, ctx'), s'') := hyields
    rw [hrun]
    obtain ⟨a, b, -, hstays, -⟩ := stays_of_loop hnamed hout
    rcases Browse.outcome_of_ends hstays.1 with rfl | rfl
    · exact .leaves hsame
    · rw [hroot rfl]
      exact .searches hsame

theorem isOneRun (htame : ∀ action job, (perform action job).Tame)
    (hblind : ∀ action job old, (perform action job).Overlooks id old) :
    IsOneRun perform ctx s where
  onward _ _ h := steps_homing
    (fun old => Browse.overlooks_handlers fun action job => hblind action job old) rfl h
  back _ _ h := steps_of_homing
    (fun old => Browse.overlooks_handlers fun action job => hblind action job old) h
  ends := endsAlike htame hblind

end

/-- **Browsing is one run.**  Whatever way there is to perform actions, browsing the jobs found
comes by the same states with the same contexts, asks the same, performs the same and ends alike
as the single run in which every transition to the root from elsewhere leads back to the jobs.
A way to perform actions comes back, takes what it is answered from the script, and does not look
at the log; that of the command is one. -/
theorem browse_is_one_run :
    (∀ perform : String → Job → Desk Json, (∀ action job, (perform action job).Tame) →
      (∀ action job old, (perform action job).Overlooks id old) →
      ∀ ctx s, IsOneRun perform ctx s) ∧
    ∀ (server : Server) (found jobs : List Job) (s : Session),
      browse server found jobs =
          browseWith (performing server jobs) { settings := server.settings, jobs := found } ∧
        IsOneRun (performing server jobs) { settings := server.settings, jobs := found } s :=
  ⟨fun _ htame hblind _ _ => isOneRun htame hblind, fun server found jobs _ =>
    ⟨browse_eq server found jobs,
      isOneRun (tame_performing server jobs) (ignoresLog_performing server jobs)⟩⟩

/-- One job was found. -/
def oneFound : Browse.Context where
  settings := plainServer.settings
  jobs := [{ name := "a", url := "http://ci/job/a" }]

/-- A way to perform actions that always leads to the root. -/
def toRoot (_ : String) (_ : Job) : Desk Json := pure (.str ActionResult.root.word)

/-- The user picks the job and an action, and then leaves. -/
def leavesAfterwards : Session where
  answers := [.value (.str "http://ci/job/a"), .value (.str "status"), .value (.str leave)]

theorem browse_is_one_run_after_root :
    (∀ action job, (toRoot action job).Tame) ∧
      (∀ action job old, (toRoot action job).Overlooks id old) ∧
      IsOneRun toRoot oneFound leavesAfterwards ∧
      ∃ state ctx s, (Browse.oneRun.runOn (Browse.handlers toRoot) oneFound none).Yields
        leavesAfterwards (⟨.exitCommand, state⟩, ctx) s := by
  have htame : ∀ action job, (toRoot action job).Tame := fun _ _ =>
    (Desk.isFair_pure (E := Event.IsAny) _).tame
  have hblind : ∀ action job old, (toRoot action job).Overlooks id old := fun _ _ _ =>
    Desk.overlooks_pure _
  have hone := browse_is_one_run.1 toRoot htame hblind oneFound leavesAfterwards
  refine ⟨htame, hblind, hone, ?_⟩
  have hleaves : ((browseWith toRoot oneFound).outcome leavesAfterwards).1 = .ok true := by
    with_unfolding_all rfl
  have hends := hone.ends
  rcases hout : (browseWith toRoot oneFound).outcome leavesAfterwards with ⟨result, s⟩
  rcases hrun : (Browse.oneRun.runOn (Browse.handlers toRoot) oneFound none).outcome
    leavesAfterwards with ⟨ending, s'⟩
  rw [hout] at hleaves hends
  rw [hrun] at hends
  obtain rfl : result = .ok true := hleaves
  cases hends with
  | @leaves _ _ state ctx _ => exact ⟨state, ctx, s', hrun⟩

end Command
end BuildDesk
