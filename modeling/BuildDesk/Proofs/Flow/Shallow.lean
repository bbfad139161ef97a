/-
Runs of a flow come to an end.

The states of a flow lead back to each other, so nothing in a table bounds a run by itself.
What does is the script: every prompt takes an answer, and routers, which take none, do not
stand in line for long.

* `Definition.passes` — how many routers may follow each other from a state on;
* `Definition.IsShallow` — no more than two from any state;
* `Within.next` — then every move of a run has fewer moves after it, where an answer that is
  left counts for three;
* `Trail.length_le` — so a run makes no more than `3 * n + 2` moves on a script of `n` answers;
* `run_ne_stalled` — and the visits that it is given suffice.

All this needs of the handlers is that they are tame (`Step.Tame`): they come back, and they
only take from the script.
-/
import BuildDesk.Proofs.Flow.Reach
import BuildDesk.Proofs.Session.Fair

namespace BuildDesk

variable {α β κ : Type}

/-! ### Tame parts -/

/-- The part comes back, with no more answers than before. -/
structure Desk.Tame (part : Desk α) : Prop where
  takes : ∀ {s a s'}, part.Yields s a s' → s'.answers.length ≤ s.answers.length
  returns : ∀ {s f s'}, part.Fails s f s' → f ≠ .stalled

/-- The part comes back, with no more answers than before. -/
structure Flow.Step.Tame (part : Flow.Step κ α) : Prop where
  takes : ∀ {ctx s a ctx' s'}, part.Yields ctx s a ctx' s' → s'.answers.length ≤ s.answers.length
  returns : ∀ {ctx s f ctx' s'}, part.Fails ctx s f ctx' s' → f ≠ .stalled

/-- A part that stalls has no rounds left, however many they were. -/
theorem Session.Fair.ne_stalled {E : Event → Prop} {s s' : Session} {f : Fault}
    (h : ∀ n, s.Fair E n (.error f : Except Fault α) s') : f ≠ .stalled := by
  rintro rfl
  have := (h (s.answers.length + 1)).stalls rfl
  omega

theorem Desk.IsFair.tame {E : Event → Prop} {part : Desk α} (h : part.IsFair E) : part.Tame where
  takes hy := ((h _ 0).since_of_yields hy).answers_le
  returns hf := Session.Fair.ne_stalled fun n => (h _ n).fair_of_fails hf

namespace Flow

theorem Step.IsFair.tame {E : Event → Prop} {part : Step κ α} (h : part.IsFair E) :
    part.Tame where
  takes hy := ((h _ _ 0).since_of_yields hy).answers_le
  returns hf := Session.Fair.ne_stalled fun n => (h _ _ n).fair_of_fails hf

theorem Step.tame_ofDesk {part : Desk α} (h : part.Tame) : (ofDesk part : Step κ α).Tame where
  takes hy := h.takes (yields_ofDesk.mp hy).1
  returns hf := h.returns (fails_ofDesk.mp hf).1

theorem Step.tame_bind {part : Step κ α} {next : α → Step κ β} (h : part.Tame)
    (hnext : ∀ a, (next a).Tame) : (part >>= next).Tame where
  takes hy := by
    obtain ⟨a, ctx₁, s₁, hpart, hrest⟩ := yields_bind.mp hy
    exact Nat.le_trans ((hnext a).takes hrest) (h.takes hpart)
  returns hf := by
    rcases fails_bind.mp hf with hpart | ⟨a, ctx₁, s₁, -, hrest⟩
    · exact h.returns hpart
    · exact (hnext a).returns hrest

/-- All handlers are tame, whatever they are called with. -/
def Registry.IsTame (r : Registry κ) : Prop :=
  ∀ {name h}, r.find? name = some h → ∀ value, (h.run value).Tame

/-- The prompt can be shown, and its parts have no faults but ordinary ones. -/
def Prompt.IsOrdinary (prompt : Prompt κ) : Prop :=
  prompt.isKnown = true ∧ ∀ lang ctx f, prompt.Broken lang ctx f → f.isOrdinary = true

/-- All prompts of the flow can be shown, and have no faults but ordinary ones. -/
def Definition.IsOrdinary (d : Definition κ) : Prop :=
  ∀ entry ∈ d.states, ∀ prompt, entry.2.prompt = some prompt → prompt.IsOrdinary

/-! ### Routers in line -/

/-- The state is left without an answer. -/
def Definition.isRouter (d : Definition κ) (name : String) : Bool :=
  (d.state? name).any fun state => state.onEnter.isSome

/-- No more than so many routers follow each other from the state on. -/
def Definition.passes (d : Definition κ) : Nat → String → Bool
  | 0, name => !d.isRouter name
  | most + 1, name => !d.isRouter name || (d.state? name).all fun state =>
      state.transitions.all fun (_, target) => d.passes most target

/-- No more than two routers follow each other. -/
def Definition.IsShallow (d : Definition κ) : Prop :=
  ∀ entry ∈ d.states, d.passes 2 entry.1 = true

variable {d : Definition κ} {r : Registry κ} {name : String} {state : State κ}
variable {ctx ctx' : κ} {s s' : Session} {a b c : Position κ} {event : String} {most : Nat}

theorem isRouter_of_state? (h : d.state? name = some state) :
    d.isRouter name = state.onEnter.isSome := by
  rw [Definition.isRouter, h, Option.any_some]

theorem passes_of_shallow (h : d.IsShallow) (name : String) : d.passes 2 name = true := by
  rcases hstate : d.state? name with _ | state
  · have hnone : d.isRouter name = false := by rw [Definition.isRouter, hstate, Option.any_none]
    rw [Definition.passes, hnone, Bool.not_false, Bool.true_or]
  · exact h _ (mem_states_of_state? hstate)

/-- After a router one router less may follow. -/
theorem passes_of_moves (hpasses : d.passes (most + 1) a.state = true)
    (hrouter : d.isRouter a.state = true) (h : Moves d r a event b) :
    d.passes most b.state = true := by
  obtain ⟨state, s, hstate, htarget, -⟩ := h
  rw [Definition.passes, hrouter, Bool.not_true, Bool.false_or, hstate, Option.all_some,
    List.all_eq_true] at hpasses
  exact hpasses (event, b.state) (mem_of_lookup htarget)

/-- Three routers never follow each other. -/
theorem not_isRouter_third {event' : String} (hd : d.IsShallow) (h : Moves d r a event b)
    (h' : Moves d r b event' c) (ha : d.isRouter a.state = true) (hb : d.isRouter b.state = true) :
    d.isRouter c.state = false := by
  have hone := passes_of_moves (passes_of_shallow hd a.state) ha h
  have hzero := passes_of_moves hone hb h'
  rwa [Definition.passes, Bool.not_eq_true'] at hzero

/-! ### What a visit takes -/

theorem tame_callHandler (htame : r.IsTame) (handler : String) (value : Option Json) :
    (callHandler d r name handler value).Tame := by
  unfold callHandler
  rcases hfind : r.find? handler with _ | h
  · exact ⟨fun hy => absurd hy Step.yields_throw, fun hf => by
      obtain ⟨rfl, -⟩ := Step.fails_throw.mp hf
      exact Fault.noConfusion⟩
  · exact htame hfind value

theorem tame_defaultEvent (prompt : Prompt κ) (v : Json) :
    (defaultEvent d name prompt v).Tame := by
  have hpure : ∀ event : Json, (pure event : Step κ Json).Tame := fun event =>
    (Step.isFair_pure (E := Event.IsAny) event).tame
  have hblame : ∀ f, (Step.blame f : Step κ Json).Tame := fun f =>
    ⟨fun hy => absurd hy Step.yields_throw, fun hf => by
      obtain ⟨rfl, -⟩ := Step.fails_throw.mp hf
      exact Fault.noConfusion⟩
  cases prompt with
  | select => exact hpure _
  | confirm => exact hpure _
  | text => exact hblame _
  | odd => exact hblame _

/-- A prompt takes an answer. -/
theorem takes_of_prompt (htame : r.IsTame) (henter : state.onEnter = none) {event : Json}
    (h : (eventAt d r name state).Yields ctx s event ctx' s') :
    s'.answers.length + 1 ≤ s.answers.length := by
  rcases hprompt : state.prompt with _ | prompt
  · simp [eventAt, henter, hprompt, Step.blame] at h
  · rw [eventAt_prompt henter hprompt] at h
    obtain ⟨v, s₁, hanswers, -, hcases⟩ := promptEvent_yields h
    rw [hanswers, List.length_cons]
    refine Nat.succ_le_succ ?_
    rcases hcases with ⟨-, -, -, rfl⟩ | ⟨-, hevent⟩
    · exact Nat.le_refl _
    · split at hevent
      · exact (tame_callHandler htame _ _).takes hevent
      · exact (tame_defaultEvent _ _).takes hevent

/-- A visit takes no more answers than there are. -/
theorem takes_of_eventAt (htame : r.IsTame) {event : Json}
    (h : (eventAt d r name state).Yields ctx s event ctx' s') :
    s'.answers.length ≤ s.answers.length := by
  rcases henter : state.onEnter with _ | handler
  · exact Nat.le_of_succ_le (takes_of_prompt htame henter h)
  · simp only [eventAt, henter] at h
    exact (tame_callHandler htame _ _).takes h

theorem isOrdinary_of_ask {prompt : Event} {f : Fault} (h : (Desk.ask prompt).Fails s f s') :
    f.isOrdinary = true := by
  unfold Desk.Fails at h
  rw [Desk.outcome_ask] at h
  split at h
  · obtain rfl := Except.error.inj (congrArg Prod.fst h)
    rfl
  · cases h
  · obtain rfl := Except.error.inj (congrArg Prod.fst h)
    rfl

/-- A prompt that cannot be shown, or that is not answered, has an ordinary fault. -/
theorem isOrdinary_of_showPrompt {prompt : Prompt κ} (hprompt : prompt.IsOrdinary) {f : Fault}
    (h : (showPrompt d name prompt).Fails ctx s f ctx' s') : f.isOrdinary = true := by
  obtain ⟨-, ⟨hbroken, -⟩ | ⟨shown, hasked⟩⟩ := showPrompt_fails hprompt.1 h
  · exact hprompt.2 _ _ _ hbroken
  · exact isOrdinary_of_ask hasked

theorem eventAt_ne_stalled (htame : r.IsTame)
    (hprompts : ∀ prompt, state.prompt = some prompt → prompt.IsOrdinary) {f : Fault}
    (h : (eventAt d r name state).Fails ctx s f ctx' s') : f ≠ .stalled := by
  rcases henter : state.onEnter with _ | handler
  · rcases hprompt : state.prompt with _ | prompt
    · simp only [eventAt, henter, hprompt] at h
      obtain ⟨rfl, -⟩ := Step.fails_throw.mp h
      exact Fault.noConfusion
    · rw [eventAt_prompt henter hprompt] at h
      rcases Step.fails_bind.mp h with hshow | ⟨v, ctx₁, s₁, -, hrest⟩
      · exact Fault.ne_stalled (isOrdinary_of_showPrompt (hprompts prompt hprompt) hshow)
      · split at hrest
        · exact absurd hrest Step.fails_pure
        · split at hrest
          · exact (tame_callHandler htame _ _).returns hrest
          · exact (tame_defaultEvent _ _).returns hrest
  · simp only [eventAt, henter] at h
    exact (tame_callHandler htame _ _).returns h

/-- A visit comes back. -/
theorem visit_ne_stalled (htame : r.IsTame) (hprompts : d.IsOrdinary) {f : Fault}
    (h : (visit d r name).Fails ctx s f ctx' s') : f ≠ .stalled := by
  unfold visit at h
  rcases hstate : d.state? name with _ | state
  · simp only [hstate] at h
    obtain ⟨rfl, -⟩ := Step.fails_throw.mp h
    exact Fault.noConfusion
  · simp only [hstate] at h
    rcases Step.fails_bind.mp h with hevent | ⟨event, ctx₁, s₁, -, hfollow⟩
    · exact eventAt_ne_stalled htame (hprompts _ (mem_states_of_state? hstate)) hevent
    · obtain ⟨rfl, -⟩ := follow_fails hfollow
      exact Fault.noConfusion

/-! ### Moves -/

/-- No more than `most` moves follow from here: an answer counts for three, and so many more
routers may come before the next prompt. -/
def Within (d : Definition κ) (most : Nat) (a : Position κ) : Prop :=
  ∃ routers ≤ 2, d.passes routers a.state = true ∧
    3 * a.session.answers.length + routers ≤ most

theorem within_start (hd : d.IsShallow) (a : Position κ) :
    Within d (3 * a.session.answers.length + 2) a :=
  ⟨2, Nat.le_refl 2, passes_of_shallow hd a.state, Nat.le_refl _⟩

/-- Every move has fewer moves after it. -/
theorem Within.next (hd : d.IsShallow) (htame : r.IsTame) (h : Within d most a)
    (hmove : Moves d r a event b) : ∃ fewer < most, Within d fewer b := by
  obtain ⟨routers, hrouters, hpasses, hmost⟩ := h
  obtain ⟨state, s, hstate, htarget, hevent, hsession⟩ := id hmove
  have hanswers : b.session.answers = s.answers := by rw [hsession]
  rcases henter : state.onEnter with _ | handler
  · -- a prompt takes an answer, and two routers may follow
    have htaken := takes_of_prompt htame henter hevent
    exact ⟨3 * b.session.answers.length + 2, by rw [hanswers]; omega, within_start hd b⟩
  · -- a router takes none, and there may be one router less
    have hrouter : d.isRouter a.state = true := by rw [isRouter_of_state? hstate, henter]; rfl
    have htaken := takes_of_eventAt htame hevent
    cases routers with
    | zero =>
      rw [Definition.passes, hrouter] at hpasses
      cases hpasses
    | succ routers =>
      refine ⟨3 * b.session.answers.length + routers, by rw [hanswers]; omega, routers,
        Nat.le_of_succ_le hrouters, passes_of_moves hpasses hrouter hmove, Nat.le_refl _⟩

/-- So many moves lead from one position to another. -/
inductive Trail (d : Definition κ) (r : Registry κ) : Nat → Position κ → Position κ → Prop
  | stay (a : Position κ) : Trail d r 0 a a
  | move {a b c : Position κ} {event : String} {moves : Nat} (first : Moves d r a event b)
      (rest : Trail d r moves b c) : Trail d r (moves + 1) a c

theorem Trail.le_within {moves : Nat} (hd : d.IsShallow) (htame : r.IsTame)
    (h : Trail d r moves a b) (hwithin : Within d most a) : moves ≤ most := by
  induction h generalizing most with
  | stay => exact Nat.zero_le _
  | move first _ ih =>
    obtain ⟨fewer, hfewer, hwithin⟩ := hwithin.next hd htame first
    exact Nat.lt_of_le_of_lt (ih hwithin) hfewer

/-- **A run makes three moves for each answer, and two more at most.** -/
theorem Trail.length_le {moves : Nat} (hd : d.IsShallow) (htame : r.IsTame)
    (h : Trail d r moves a b) : moves ≤ 3 * a.session.answers.length + 2 :=
  h.le_within hd htame (within_start hd a)

/-- A run with more visits than moves comes to its end. -/
theorem go_ne_stalled (hd : d.IsShallow) (htame : r.IsTame) (hprompts : d.IsOrdinary)
    {visits : Nat} (hwithin : Within d most ⟨name, ctx, s⟩) (hvisits : most < visits) {f : Fault}
    (h : (d.go r visits name).Fails ctx s f ctx' s') : f ≠ .stalled := by
  induction visits generalizing name ctx s most with
  | zero => exact absurd hvisits (Nat.not_lt_zero _)
  | succ visits ih =>
    rcases Step.fails_bind.mp h with hvisit | ⟨target, ctx₁, s₁, hvisit, hrest⟩
    · exact visit_ne_stalled htame hprompts hvisit
    · obtain ⟨event, hmove⟩ := visit_yields.mp hvisit
      obtain ⟨fewer, hfewer, hwithin⟩ := hwithin.next hd htame hmove
      split at hrest
      · exact absurd hrest Step.fails_pure
      · exact ih hwithin (by omega) hrest

/-- A flow with problems has a fault of a flow. -/
theorem exists_of_check_error {f : Fault} (h : check d r = .error f) :
    ∃ c, f = .complaint (.flow c) := by
  unfold check at h
  split at h
  · exact absurd h nofun
  · exact ⟨_, (Except.error.inj h).symm⟩

/-- **The visits that a run is given suffice.** -/
theorem run_ne_stalled (hd : d.IsShallow) (htame : r.IsTame) (hprompts : d.IsOrdinary)
    {start : Option String} {f : Fault} (h : (d.run r start).Fails ctx s f ctx' s') :
    f ≠ .stalled := by
  rcases run_fails h with ⟨hcheck, -⟩ | ⟨-, hrun⟩
  · obtain ⟨c, rfl⟩ := exists_of_check_error hcheck
    exact Fault.noConfusion
  · unfold Step.Fails at hrun
    rw [outcome_runFor] at hrun
    exact go_ne_stalled hd htame hprompts (within_start hd _) (Nat.lt_succ_self _) hrun

/-! ### Runs that start with a prompt -/

theorem takes_of_moves (htame : r.IsTame) (h : Moves d r a event b) :
    b.session.answers.length ≤ a.session.answers.length := by
  obtain ⟨state, s, -, -, hevent, hsession⟩ := h
  have hanswers : b.session.answers = s.answers := by rw [hsession]
  exact hanswers ▸ takes_of_eventAt htame hevent

/-- A run that starts with a prompt takes an answer, if it ends well. -/
theorem takes_of_go (htame : r.IsTame) (hprompt : d.isRouter name = false) {visits : Nat}
    {ending : Ending} (h : (d.go r visits name).Yields ctx s ending ctx' s') :
    s'.answers.length + 1 ≤ s.answers.length := by
  -- the first visit takes an answer, and the rest of the run gives none back
  have hfirst : ∀ {b event}, Moves d r ⟨name, ctx, s⟩ event b →
      b.session.answers.length + 1 ≤ s.answers.length := by
    rintro b event ⟨state, s₁, hstate, -, hevent, hsession⟩
    have hanswers : b.session.answers = s₁.answers := by rw [hsession]
    rw [isRouter_of_state? hstate, Option.isSome_eq_false_iff, Option.isNone_iff_eq_none] at hprompt
    exact hanswers ▸ takes_of_prompt htame hprompt hevent
  obtain ⟨x, y, hreach, -, ⟨⟨event, hmove⟩, -⟩, -, rfl⟩ := go_yields h
  rcases Relation.ReflTransGen.cases_head hreach with rfl | ⟨z, ⟨⟨_, hstart⟩, -⟩, hrest⟩
  · exact hfirst hmove
  · have hkept : x.session.answers.length ≤ z.session.answers.length :=
      Reaches.invariant (P := fun p => p.session.answers.length ≤ z.session.answers.length) hrest
        (Nat.le_refl _) fun p q hp ⟨⟨_, hpq⟩, _⟩ => Nat.le_trans (takes_of_moves htame hpq) hp
    have hlast := takes_of_moves htame hmove
    have := hfirst hstart
    omega

theorem takes_of_run (htame : r.IsTame) {start : Option String}
    (hprompt : d.isRouter (d.startState start) = false) {ending : Ending}
    (h : (d.run r start).Yields ctx s ending ctx' s') :
    s'.answers.length + 1 ≤ s.answers.length := by
  obtain ⟨-, hrun⟩ := run_yields.mp h
  unfold Step.Yields at hrun
  rw [outcome_runFor] at hrun
  have hgo : (d.go r (visitsFor s) (d.startState start)).Yields ctx
    { s with log := .start d.id (d.startState start) :: s.log } ending ctx' s' := hrun
  have htaken := takes_of_go htame hprompt hgo
  exact htaken

end Flow
end BuildDesk
