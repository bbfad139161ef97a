/-
What can be relied on in every run.

Two things are promised of all runs of the commands, whatever the options are, whatever the
server replies and whatever stands in the job file:

* `handles_what_is_offered` — no flow is at a loss: an option that was offered leads on, so does
  every result of an action, and no command ends in a fault of a flow when the user picks among
  what is offered;
* `ends_on_every_script` — no run goes on for ever: between two prompts there are two routers at
  most, a run makes no more than `3 * n + 2` moves on a script of `n` answers, the loops of the
  commands take an answer in each round, and no command runs out of the rounds it is given.

`Bounded` says of a flow what the second asks of it; a shallow flow with tame handlers has it
(`bounded_of_shallow`).
-/
import BuildDesk.Proofs.Fair.Commands

namespace BuildDesk

variable {κ : Type}

/-! ### Flows that end -/

namespace Flow

variable {d : Definition κ} {r : Registry κ}

/-- The runs of a flow end on every script. -/
structure Bounded (d : Definition κ) (r : Registry κ) : Prop where
  /-- No more than two routers stand between two prompts. -/
  routers : ∀ {a b c event event'}, Moves d r a event b → Moves d r b event' c →
    d.isRouter a.state = true → d.isRouter b.state = true → d.isRouter c.state = false
  /-- The moves of a run are bounded by the answers that it may take. -/
  moves : ∀ {moves a b}, Trail d r moves a b → moves ≤ 3 * a.session.answers.length + 2
  /-- A run does not go on for ever. -/
  ends : ∀ {start ctx s f ctx' s'}, (d.run r start).Fails ctx s f ctx' s' → f ≠ .stalled

theorem bounded_of_shallow (hd : d.IsShallow) (hprompts : d.IsOrdinary) (htame : r.IsTame) :
    Bounded d r where
  routers := not_isRouter_third hd
  moves := Trail.length_le hd htame
  ends := run_ne_stalled hd htame hprompts

theorem isTame_of_forall (h : ∀ handler found, (handler, found) ∈ r →
    ∀ value, (Handler.run found value).Tame) : r.IsTame := by
  intro handler found hfind value
  exact h handler found (mem_of_lookup hfind) value

/-- What goes on from the context is tame when it is so from each. -/
theorem Step.tame_context {α : Type} {next : κ → Step κ α} (h : ∀ ctx, (next ctx).Tame) :
    (Step.context >>= next).Tame :=
  Step.tame_bind (Step.isFair_context (E := Event.IsAny)).tame h

theorem Step.tame_pure {α : Type} (a : α) : (pure a : Step κ α).Tame :=
  (Step.isFair_pure (E := Event.IsAny) a).tame

theorem tame_selecting (change : Json → κ → String × κ) (value : Option Json) :
    ((Handler.settling leaving (.ofChange none change)).run value).Tame :=
  (isFair_settling (E := Event.IsAny) (fun _ _ => isFair_settled) isFair_ofChange value).tame

theorem Browse.isTame_handlers {perform : String → Job → Desk Json}
    (h : ∀ action job, (perform action job).Tame) : (handlers perform).IsTame := by
  refine isTame_of_forall fun handler found hfound => ?_
  simp only [handlers, List.mem_cons, List.not_mem_nil, or_false, Prod.mk.injEq] at hfound
  rcases hfound with ⟨rfl, rfl⟩ | ⟨rfl, rfl⟩ | ⟨rfl, rfl⟩
  · exact fun value => (isFair_settling (E := Event.IsAny) (fun _ _ => isFair_settled)
      isFair_ofChange value).tame
  · exact tame_selecting _
  · refine fun _ => Step.tame_context fun ctx => ?_
    split
    · split
      · exact Step.tame_pure _
      · exact Step.tame_ofDesk (h _ _)
    · exact Step.tame_pure _

theorem Review.isTame_handlers {perform : String → Desk Json}
    (h : ∀ action, (perform action).Tame) : (handlers perform).IsTame := by
  refine isTame_of_forall fun handler found hfound => ?_
  simp only [handlers, List.mem_cons, List.not_mem_nil, or_false, Prod.mk.injEq] at hfound
  rcases hfound with ⟨rfl, rfl⟩ | ⟨rfl, rfl⟩ | ⟨rfl, rfl⟩
  · exact tame_selecting _
  · refine fun _ => Step.tame_context fun ctx => ?_
    split
    · split
      · exact Step.tame_pure _
      · exact Step.tame_ofDesk (h _)
    · exact Step.tame_pure _
  · exact fun value => (isFair_confirming (E := Event.IsAny) value).tame

theorem FollowUp.isTame_handlers {perform : String → Step Context Json}
    (h : ∀ action, (perform action).Tame) : (handlers perform).IsTame := by
  refine isTame_of_forall fun handler found hfound => ?_
  simp only [handlers, List.mem_cons, List.not_mem_nil, or_false, Prod.mk.injEq] at hfound
  rcases hfound with ⟨rfl, rfl⟩ | ⟨rfl, rfl⟩ | ⟨rfl, rfl⟩ | ⟨rfl, rfl⟩ | ⟨rfl, rfl⟩
  · exact tame_selecting _
  · refine fun _ => Step.tame_context fun ctx => ?_
    split
    · split
      · exact Step.tame_pure _
      · exact h _
    · exact Step.tame_pure _
  · exact fun value => (isFair_ofChange (E := Event.IsAny) value).tame
  · exact fun value => (isFair_ofChange (E := Event.IsAny) value).tame
  · exact fun value => (isFair_confirming (E := Event.IsAny) value).tame

end Flow

namespace Command

open BuildDesk.Flow

/-! ### Nothing that is offered is unexpected -/

/-- In every state of the flow, what is offered leads on. -/
def HandlesAll (d : Definition κ) (r : Registry κ) : Prop :=
  ∀ {name state}, d.state? name = some state → LeadsOn d r name state

/-- The fault is one that a command meets with when it is run in a session in which the user
keeps to what is offered. -/
inductive MetWith (server : Server) (f : Fault) (s : Session) : Prop
  | list {interactive anew search s'}
      (hfails : (list server interactive anew search).Fails s f s')
      (hobeys : s.Obeys s')
  | build {interactive o s'} (hfails : (build server interactive o).Fails s f s')
      (hobeys : s.Obeys s')
  | status {interactive nonInteractive wish s'}
      (hfails : (status server interactive nonInteractive wish).Fails s f s')
      (hobeys : s.Obeys s')
  | target {wish interactive s'} (hfails : (Wish.target wish server interactive).Fails s f s')
      (hobeys : s.Obeys s')

theorem not_isFlow_of_isFair {α : Type} {part : Desk α} {f : Fault} {s s' : Session}
    (hfair : part.IsFair Event.IsAny) (hfails : part.Fails s f s') (hobeys : s.Obeys s') :
    f.isFlow = false := by
  by_contra hflow
  exact ((hfair s 0).fair_of_fails hfails).blames f rfl (by simpa using hflow) hobeys

/-- **Nothing that is offered is unexpected.**  In every state of the four flows, with the
actions that the commands perform, the answers that the prompt allows lead on in whatever
context the state is come to, and so does the result of every action.  So a command in which
the user keeps to what is offered ends in no fault of a flow. -/
theorem handles_what_is_offered (server : Server) :
    (∀ jobs, HandlesAll Browse.table (browsing server jobs)) ∧
    HandlesAll Prepare.table Prepare.handlers ∧
    (∀ order, HandlesAll FollowUp.table (followUps server order)) ∧
    (∀ job label jobs, HandlesAll Review.table (reviewing server job label jobs)) ∧
    (∀ result : ActionResult, Browse.perform.handles result.word = true ∧
      FollowUp.perform.handles result.word = true ∧ Review.perform.handles result.word = true) ∧
    ∀ f s, MetWith server f s → f.isFlow = false := by
  refine ⟨fun jobs => (browsing_sound server jobs).leadsOn, Prepare.leadsOn,
    fun order => (followUp_sound server order).leadsOn,
    fun job label jobs => (reviewing_sound server job label jobs).leadsOn, ?_, ?_⟩
  · rintro (_ | _ | _ | _ | _) <;> exact ⟨rfl, rfl, rfl⟩
  · intro f s hmet
    cases hmet with
    | list hfails hobeys => exact not_isFlow_of_isFair (isFair_list _ _ _ _) hfails hobeys
    | build hfails hobeys => exact not_isFlow_of_isFair (isFair_build _ _ _) hfails hobeys
    | status hfails hobeys => exact not_isFlow_of_isFair (isFair_status _ _ _ _) hfails hobeys
    | target hfails hobeys => exact not_isFlow_of_isFair (Wish.isFair_target _ _ _) hfails hobeys

/-- A server that needs no crumb. -/
def plainServer : Server := ⟨{ url := "http://ci", user := "u", token := "t" }, .int 5⟩

/-- The user wants a build without parameters, and is gone when it is queued. -/
def goneAfterQueuing : Session where
  answers := [.value (.str withoutParams)]
  responses := [.reply { headers := [("Location", .str "http://ci/queue/1/")] } 0.0]

theorem fails_goneAfterQueuing : (build plainServer true byAddress).Fails goneAfterQueuing
    (.scriptEnd .answers) ((build plainServer true byAddress).outcome goneAfterQueuing).2 :=
  Prod.ext (by with_unfolding_all rfl) rfl

/-- A build that ends because nobody is there to follow up on it. -/
theorem handles_build_without_parameters :
    ∃ f s', (build plainServer true byAddress).Fails goneAfterQueuing f s' ∧
      goneAfterQueuing.Obeys s' ∧ f.isFlow = false := by
  have hobeys : goneAfterQueuing.Obeys
      ((build plainServer true byAddress).outcome goneAfterQueuing).2 :=
    Session.obeys_of_all (by decide +kernel)
  exact ⟨_, _, fails_goneAfterQueuing, hobeys, (handles_what_is_offered plainServer).2.2.2.2.2
    _ _ (.build fails_goneAfterQueuing hobeys)⟩

/-! ### Nothing goes on for ever -/

/-- A loop of so many rounds takes an answer in each of them before it runs out of them. -/
def TakesRounds {α : Type} (loop : Desk α) (rounds : Nat) : Prop :=
  ∀ s s', loop.Fails s .stalled s' → s'.answers.length + rounds ≤ s.answers.length

theorem takesRounds_of_fairFor {α : Type} {loop : Desk α} {rounds : Nat}
    (h : ∀ s, Desk.FairFor Event.IsAny rounds loop s) : TakesRounds loop rounds :=
  fun s _ hfails => ((h s).fair_of_fails hfails).stalls rfl

/-- **Nothing goes on for ever.**  The runs of the four flows end on every script, whatever the
actions are that they perform, as long as these come back.  The loops of the commands take an
answer in each round, but for the first round of a search that was given, and no command runs
out of the rounds that its loops are given. -/
theorem ends_on_every_script (server : Server) :
    (∀ perform : String → Job → Desk Json, (∀ action job, (perform action job).Tame) →
      Bounded Browse.table (Browse.handlers perform)) ∧
    Bounded Prepare.table Prepare.handlers ∧
    (∀ perform : String → Step FollowUp.Context Json, (∀ action, (perform action).Tame) →
      Bounded FollowUp.table (FollowUp.handlers perform)) ∧
    (∀ perform : String → Desk Json, (∀ action, (perform action).Tame) →
      Bounded Review.table (Review.handlers perform)) ∧
    (∀ k, (∀ param o jobs sofar, TakesRounds (rounds server param k o jobs sofar) k) ∧
      (∀ wish jobs, TakesRounds (reviews server k wish jobs) k) ∧
      (∀ jobs ctx, TakesRounds (browseFrom server jobs k ctx none) k) ∧
      ∀ jobs, TakesRounds (searches server jobs k none) k ∧
        ∀ text, TakesRounds (searches server jobs (k + 1) (some text)) k) ∧
    ∀ s f s', ((∃ found jobs, (browse server found jobs).Fails s f s') ∨
      (∃ interactive anew search, (list server interactive anew search).Fails s f s') ∨
      (∃ interactive o, (build server interactive o).Fails s f s') ∨
      ∃ interactive alone wish, (status server interactive alone wish).Fails s f s') →
        f ≠ .stalled := by
  refine ⟨fun perform h => bounded_of_shallow Browse.shallow Browse.ordinary
      (Browse.isTame_handlers h),
    bounded_of_shallow Prepare.shallow Prepare.ordinary (Prepare.sound (E := Event.IsAny)).isTame,
    fun perform h => bounded_of_shallow FollowUp.shallow FollowUp.ordinary
      (FollowUp.isTame_handlers h),
    fun perform h => bounded_of_shallow Review.shallow Review.ordinary (Review.isTame_handlers h),
    fun k => ⟨?_, ?_, ?_, ?_⟩, ?_⟩
  · exact fun param o jobs sofar => takesRounds_of_fairFor (fairFor_rounds _ _ _ _ _ _)
  · exact fun wish jobs => takesRounds_of_fairFor (fairFor_reviews _ _ _ _)
  · exact fun jobs ctx => takesRounds_of_fairFor (fairFor_browseFrom _ _ _ _ (.inl rfl))
  · exact fun jobs => ⟨takesRounds_of_fairFor fun s => (fairFor_searches _ _ _ s).1,
      fun text => takesRounds_of_fairFor fun s => (fairFor_searches _ _ _ s).2 text⟩
  · rintro s f s' (⟨found, jobs, h⟩ | ⟨interactive, anew, search, h⟩ | ⟨interactive, o, h⟩ |
      ⟨interactive, alone, wish, h⟩)
    · exact (isFair_browse _ _ _).tame.returns h
    · exact (isFair_list _ _ _ _).tame.returns h
    · exact (isFair_build _ _ _).tame.returns h
    · exact (isFair_status _ _ _ _).tame.returns h

/-- The user watches the build, is done with the job, and looks at no other. -/
def watchedOnce : Session where
  answers := [.value (.str "watch"), .value (.str done), .value (.bool false)]

/-- A review of four moves where eleven are allowed, a search that finds nothing, and a build
that nobody follows up on. -/
theorem ends_after_watching :
    (∃ b, Trail Review.table (Review.handlers fun _ => pure (.str ActionResult.ok.word)) 4
      ⟨"action_menu", { settings := plainServer.settings, label := .str "app" }, watchedOnce⟩ b ∧
      4 ≤ 3 * watchedOnce.answers.length + 2) ∧
    (∃ s', (searches plainServer [] 1 none).Fails { answers := [.value (.str "app")] } .stalled s' ∧
      s'.answers.length + 1 ≤ 1) ∧
    ∃ f s', (build plainServer true byAddress).Fails goneAfterQueuing f s' ∧ f ≠ .stalled := by
  obtain ⟨-, -, -, hreview, hloops, hcommands⟩ := ends_on_every_script plainServer
  have htame : ∀ _ : String, (pure (.str ActionResult.ok.word) : Desk Json).Tame := fun _ =>
    (Desk.isFair_pure (E := Event.IsAny) _).tame
  have htrail : ∃ b, Trail Review.table (Review.handlers fun _ => pure (.str ActionResult.ok.word))
      4 ⟨"action_menu", { settings := plainServer.settings, label := .str "app" }, watchedOnce⟩ b :=
    ⟨_, .move (moves_of_outcome rfl rfl rfl) (.move (moves_of_outcome rfl rfl rfl)
      (.move (moves_of_outcome rfl rfl rfl) (.move (moves_of_outcome rfl rfl rfl) (.stay _))))⟩
  have hsearch : (searches plainServer [] 1 none).Fails { answers := [.value (.str "app")] }
      .stalled ((searches plainServer [] 1 none).outcome { answers := [.value (.str "app")] }).2 :=
    Prod.ext (by with_unfolding_all rfl) rfl
  obtain ⟨b, htrail⟩ := htrail
  exact ⟨⟨b, htrail, (hreview _ htame).moves htrail⟩,
    ⟨_, hsearch, ((hloops 1).2.2.2 []).1 _ _ hsearch⟩, _, _, fails_goneAfterQueuing,
    hcommands _ _ _ (.inr (.inr (.inl ⟨_, _, fails_goneAfterQueuing⟩)))⟩

end Command
end BuildDesk
