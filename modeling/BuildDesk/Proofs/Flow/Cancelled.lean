/-
Cancelling whatever is asked.

A prompt that is cancelled is left by `esc`, and a router that needs nothing but the context
passes on.  This file follows a run in which every prompt is cancelled.  It does so for a whole
family of registries at once, which have these routers in common, so that nothing of what happens
can be due to handlers in which they differ:

* `Session.Dismisses` — between two sessions so many prompts were cancelled, and nothing else
  happened but steps of the flow;
* `Back` — one visit, and `Cancels` — such visits up to the end of the run;
* `dismisses_of_cancels` — the session that they leave;
* `Definition.LetsGo`, `letsGo_of_cancels` — so on a script of cancellations the run ends, after
  so many prompts at most;
* `Definition.Balks`, `balks_of_unnamed` — where the server cannot be named, it fails before
  anything is asked.
-/
import BuildDesk.Proofs.Flow.Homing
import BuildDesk.Proofs.Flow.Shown

namespace BuildDesk

/-! ### Sessions -/

/-- Since the earlier session so many prompts were shown and cancelled; besides, the flow logged
its steps, and nothing else happened. -/
structure Session.Dismisses (flow : String) (n : Nat) (s s' : Session) : Prop where
  answers : s.answers = List.replicate n (.value .null) ++ s'.answers
  log : ∃ news, s'.log = news ++ s.log ∧ news.countP Event.isPrompt = n ∧
    ∀ e ∈ news, e.isPrompt = true ∨ e.isStepOf flow = true
  rest : s' = { s with answers := s'.answers, log := s'.log }

namespace Session.Dismisses

variable {flow : String} {n m : Nat} {s s₁ s' : Session}

theorem refl (s : Session) : s.Dismisses flow 0 s := ⟨rfl, ⟨[], rfl, rfl, nofun⟩, rfl⟩

theorem trans (h : s.Dismisses flow n s₁) (h' : s₁.Dismisses flow m s') :
    s.Dismisses flow (n + m) s' where
  answers := by rw [h.answers, h'.answers, List.replicate_add, List.append_assoc]
  log := by
    obtain ⟨news, hlog, hcount, hnews⟩ := h.log
    obtain ⟨news', hlog', hcount', hnews'⟩ := h'.log
    refine ⟨news' ++ news, by rw [hlog', hlog, List.append_assoc], ?_, fun e he => ?_⟩
    · rw [List.countP_append, hcount, hcount', Nat.add_comm]
    · exact (List.mem_append.mp he).elim (hnews' e) (hnews e)
  rest := by
    obtain ⟨-, -, hrest⟩ := h
    obtain ⟨-, -, hrest'⟩ := h'
    rw [hrest', hrest]

/-- A prompt was cancelled. -/
theorem of_prompt {shown : Event} {rest : List Answer} (hshown : shown.isPrompt = true)
    (hanswers : s.answers = .value .null :: rest) :
    s.Dismisses flow 1 { s with answers := rest, log := shown :: s.log } where
  answers := hanswers
  log := ⟨[shown], rfl, List.countP_cons_of_pos hshown, fun e he => by
    rw [List.mem_singleton.mp he]
    exact .inl hshown⟩
  rest := rfl

/-- The flow made a step, or started. -/
theorem of_step {e : Event} (hstep : e.isStepOf flow = true) (hquiet : e.isPrompt = false) :
    s.Dismisses flow 0 { s with log := e :: s.log } where
  answers := rfl
  log := ⟨[e], rfl, List.countP_cons_of_neg (by rw [hquiet]; exact Bool.false_ne_true),
    fun e' he => by
      rw [List.mem_singleton.mp he]
      exact .inr hstep⟩
  rest := rfl

end Session.Dismisses

/-- The next answers of the script, so many, cancel. -/
def Session.Cancels (s : Session) (n : Nat) : Prop :=
  s.answers.take n = List.replicate n (.value .null)

theorem Session.Cancels.split {s : Session} {n m : Nat} (h : s.Cancels n) (hle : m ≤ n) :
    s.answers = List.replicate m (.value .null) ++ s.answers.drop m := by
  have htake : s.answers.take m = List.replicate m (.value .null) := by
    rw [← Nat.min_eq_left hle, ← List.take_take, h, List.take_replicate]
  rw [← htake, List.take_append_drop]

theorem Session.Cancels.le_length {s : Session} {n : Nat} (h : s.Cancels n) :
    n ≤ s.answers.length := by
  have hlength := congrArg List.length h
  rw [List.length_take, List.length_replicate] at hlength
  omega

namespace Flow

variable {κ ι : Type} {d : Definition κ} {name target : String} {ctx ctx' : κ}
variable {s s' : Session}

/-! ### One visit -/

/-- A visit of a run in which everything is cancelled: a prompt is left by `esc`, and a router
that all registries have passes on.  Counted are the prompts that are shown. -/
inductive Back (d : Definition κ) (r : ι → Registry κ) (name : String) (ctx : κ) :
    Nat → String → κ → Prop
  | esc {state : State κ} {prompt : Prompt κ} {target : String}
      (hstate : d.state? name = some state) (henter : state.onEnter = none)
      (hprompt : state.prompt = some prompt) (hshows : prompt.Shows ctx)
      (htarget : state.target? "esc" = some target) : Back d r name ctx 1 target ctx
  | pass {state : State κ} {handler : String} {emits : Option (List String)} {target : String}
      (change : Json → κ → String × κ) (hstate : d.state? name = some state)
      (henter : state.onEnter = some handler)
      (hfind : ∀ i, (r i).find? handler = some (.ofChange emits change))
      (htarget : state.target? (change .null ctx).1 = some target) :
      Back d r name ctx 0 target (change .null ctx).2

variable {r : ι → Registry κ} {n : Nat}

/-- An event with a transition for it leads there, and is logged. -/
theorem visit_of_eventAt {r : Registry κ} {state : State κ} {event : String}
    (hstate : d.state? name = some state) (htarget : state.target? event = some target)
    (hevent : (eventAt d r name state).Yields ctx s (.str event) ctx' s') :
    (visit d r name).Yields ctx s target ctx'
      { s' with log := .step d.id name event target :: s'.log } :=
  visit_yields.mpr ⟨event, state, s', hstate, htarget, hevent, rfl⟩

/-- The visit comes to the same in all registries. -/
theorem dismisses_of_back (h : Back d r name ctx n target ctx') {rest : List Answer}
    (hanswers : s.answers = List.replicate n (.value .null) ++ rest) :
    ∃ s', s.Dismisses d.id n s' ∧ s'.answers = rest ∧
      ∀ i, (visit d (r i) name).Yields ctx s target ctx' s' := by
  have hstep : ∀ (event : String) (t : Session), t.Dismisses d.id 0
      { t with log := .step d.id name event target :: t.log } := fun event t =>
    .of_step (beq_self_eq_true d.id) rfl
  cases h with
  | @esc state prompt _ hstate henter hprompt hshows htarget =>
    obtain ⟨shown, hshown, hyields⟩ := exists_shown d name hshows hanswers
    refine ⟨_, (Session.Dismisses.of_prompt hshown hanswers).trans (hstep "esc" _), rfl,
      fun i => visit_of_eventAt hstate htarget ?_⟩
    rw [eventAt_prompt henter hprompt]
    exact Step.yields_bind.mpr ⟨.null, ctx, _, hyields, Step.yields_pure.mpr ⟨rfl, rfl, rfl⟩⟩
  | @pass state handler emits _ change hstate henter hfind htarget =>
    refine ⟨_, hstep (change .null ctx).1 s, hanswers, fun i =>
      visit_of_eventAt hstate htarget ?_⟩
    rw [eventAt_router henter (hfind i)]
    exact yields_ofChange.mpr ⟨rfl, rfl, rfl⟩

/-! ### The run -/

/-- A run in which everything is cancelled, up to its end: the visits that it makes, the prompts
that it shows, and how it ends. -/
inductive Cancels (d : Definition κ) (r : ι → Registry κ) :
    Nat → Nat → String → κ → Ending → κ → Prop
  | out {name : String} {ctx ctx' : κ} {n : Nat} {outcome : Outcome}
      (last : Back d r name ctx n outcome.word ctx') : Cancels d r 1 n name ctx ⟨outcome, name⟩ ctx'
  | next {name target : String} {ctx ctx₁ ctx' : κ} {n m visits : Nat} {ending : Ending}
      (first : Back d r name ctx n target ctx₁) (hin : Outcome.ofWord? target = none)
      (rest : Cancels d r visits m target ctx₁ ending ctx') :
      Cancels d r (visits + 1) (n + m) name ctx ending ctx'

variable {visits : Nat} {ending : Ending}

/-- The run ends in all registries alike. -/
theorem dismisses_of_cancels (h : Cancels d r visits n name ctx ending ctx') {rest : List Answer}
    (hanswers : s.answers = List.replicate n (.value .null) ++ rest) :
    ∃ s', s.Dismisses d.id n s' ∧
      ∀ i more, (d.go (r i) (visits + more) name).Yields ctx s ending ctx' s' := by
  -- Along the run: a visit takes its answers off the script, and the rest goes on with what is left.
  induction h generalizing s with
  | @out name ctx ctx' n outcome last =>
    obtain ⟨s', hdismisses, -, hvisit⟩ := dismisses_of_back last hanswers
    refine ⟨s', hdismisses, fun i more => ?_⟩
    rw [Nat.add_comm]
    refine Step.yields_bind.mpr ⟨_, ctx', s', hvisit i, ?_⟩
    rw [Outcome.ofWord?_word]
    exact Step.yields_pure.mpr ⟨rfl, rfl, rfl⟩
  | @next name target ctx ctx₁ ctx' n m visits ending first hin _ ih =>
    rw [List.replicate_add, List.append_assoc] at hanswers
    obtain ⟨s₁, hfirst, hrest, hvisit⟩ := dismisses_of_back first hanswers
    obtain ⟨s', hlast, hgo⟩ := ih hrest
    refine ⟨s', hfirst.trans hlast, fun i more => ?_⟩
    rw [Nat.add_right_comm]
    refine Step.yields_bind.mpr ⟨target, ctx₁, s₁, hvisit i, ?_⟩
    rw [hin]
    exact hgo i more

/-- On a script of cancellations a run that starts in the state ends, after so many prompts at
most, and in all registries alike; of the outcome this much is known. -/
def Definition.LetsGo (d : Definition κ) (r : ι → Registry κ) (most : Nat) (name : String)
    (ctx : κ) (P : Outcome → Prop) : Prop :=
  ∀ s : Session, s.Cancels most → ∃ n ending ctx' s', n ≤ most ∧ P ending.outcome ∧
    s.Dismisses d.id n s' ∧ ∀ i, (d.run (r i) (some name)).Yields ctx s ending ctx' s'

/-- A run that starts in the state fails before anything is asked, in all registries alike. -/
def Definition.Balks (d : Definition κ) (r : ι → Registry κ) (name : String) (ctx : κ)
    (f : Fault) : Prop :=
  ∀ s : Session, ∃ s', s.Dismisses d.id 0 s' ∧
    ∀ i, (d.run (r i) (some name)).Fails ctx s f ctx s'

/-- A run starts in the state, and logs that. -/
theorem outcome_runFor_some {r : Registry κ} (hnamed : name ≠ "") (visits : Nat) (ctx : κ)
    (s : Session) : (d.runFor r visits (some name)).outcome ctx s =
      (d.go r visits name).outcome ctx { s with log := .start d.id name :: s.log } := by
  rw [outcome_runFor, startState_some hnamed]

/-- The run of a checked flow fails where it does so with the visits of its script. -/
theorem run_fails_of_runFor {r : Registry κ} {start : Option String} {f : Fault}
    (hcheck : check d r = .ok ())
    (h : (d.runFor r (visitsFor s) start).Fails ctx s f ctx' s') :
    (d.run r start).Fails ctx s f ctx' s' := by
  refine Step.fails_bind.mpr (.inr ⟨(), ctx, s, ?_, Step.fails_bind.mpr (.inr ⟨s, ctx, s, ?_, h⟩)⟩)
  · exact Step.yields_ofDesk.mpr ⟨Desk.yields_ofExcept.mpr ⟨hcheck, rfl⟩, rfl⟩
  · exact Step.yields_session.mpr ⟨rfl, rfl, rfl⟩

theorem letsGo_of_cancels {most : Nat} {P : Outcome → Prop}
    (hchecked : ∀ i, problems d (some (r i)) = []) (hnamed : name ≠ "")
    (h : Cancels d r visits n name ctx ending ctx') (hvisits : visits ≤ 3 * most + 3)
    (hn : n ≤ most) (hP : P ending.outcome) : d.LetsGo r most name ctx P := by
  intro s hs
  have hstarted : s.Dismisses d.id 0 { s with log := .start d.id name :: s.log } :=
    .of_step (beq_self_eq_true d.id) rfl
  obtain ⟨s', hdismisses, hgo⟩ := dismisses_of_cancels h
    (s := { s with log := .start d.id name :: s.log }) (hs.split hn)
  refine ⟨n, ending, ctx', s', hn, hP, Nat.zero_add n ▸ hstarted.trans hdismisses, fun i => ?_⟩
  -- the visits that a script of so many answers allows are more than the way out takes
  have hlength := hs.le_length
  have hmore : visitsFor s = visits + (visitsFor s - visits) := by
    unfold visitsFor
    omega
  refine run_yields.mpr ⟨check_of_problems (hchecked i), ?_⟩
  unfold Step.Yields
  rw [outcome_runFor_some hnamed, hmore]
  exact hgo i _

/-- A prompt of the flow is left by `esc`. -/
theorem back_of_prompt [Addressed κ] {state : State κ} {prompt : Prompt κ}
    (hnames : d.NamesServer) (hnamed : (Addressed.settings ctx).IsNamed)
    (hstate : d.state? name = some state) (henter : state.onEnter = none)
    (hprompt : state.prompt = some prompt) (htarget : state.target? "esc" = some target) :
    Back d r name ctx 1 target ctx :=
  .esc hstate henter hprompt
    ((hnames _ (mem_states_of_state? hstate) prompt hprompt).shows hnamed) htarget

theorem balks_of_unnamed [Addressed κ] {f : Fault}
    (hchecked : ∀ i, problems d (some (r i)) = []) (hnames : d.NamesServer)
    (hnamed : name ≠ "") (hasks : d.asks name = true)
    (hunnamed : Settings.profileLabel (Addressed.settings ctx).profile = .error f) :
    d.Balks r name ctx f := by
  obtain ⟨state, prompt, hstate, henter, hprompt⟩ := exists_of_asks hasks
  have hserver := hnames _ (mem_states_of_state? hstate) prompt hprompt
  refine fun s => ⟨_, .of_step (e := .start d.id name) (beq_self_eq_true d.id) rfl, fun i => ?_⟩
  refine run_fails_of_runFor (check_of_problems (hchecked i)) ?_
  unfold Step.Fails
  rw [outcome_runFor_some hnamed]
  refine Step.fails_bind.mpr (.inl ?_)
  unfold visit
  rw [hstate]
  refine Step.fails_bind.mpr (.inl ?_)
  rw [eventAt_prompt henter hprompt]
  exact Step.fails_bind.mpr (.inl (hserver.fails hunnamed))

end Flow
end BuildDesk
