/-
Prompts for a yes or a no.

A prompt for a yes or a no need not have a handler: its answer then stands for an event by
itself.  The check of a flow keeps such a state to these events and to `esc`, but it does not
ask that there is a transition for each of them.

* `State.Confirms`, `answerEvent` — states with such a prompt, and the events of its answers;
* `handles_of_confirms` — what the check grants of such a state;
* `go_of_reaches` — a run that reaches a position goes on from there;
* `answered_of_checked` — a cancelled prompt is always left by `esc`; any other answer leads on
  just when there is a transition for it, and else it makes the run fail.
-/
import BuildDesk.Flow.Question
import BuildDesk.Proofs.Flow.Checked
import BuildDesk.Proofs.Flow.Homing

namespace BuildDesk.Flow

variable {κ : Type} {d : Definition κ} {r : Registry κ} {state : State κ} {name : String}
variable {message initial : Projection κ Json} {ctx ctx' : κ} {s s' : Session}
variable {a b : Position κ} {v : Json}

/-- The state asks for a yes or a no, and no handler takes the answer. -/
def State.Confirms (state : State κ) (message initial : Projection κ Json) : Prop :=
  state.prompt = some (.confirm message initial) ∧ state.onSelect = none

/-- The event of an answer that no handler takes. -/
def answerEvent (v : Json) : String := if v.isNull then "esc" else confirmed v

/-! ### What the check grants -/

theorem isDefault_of_defaultProblems {event : String}
    (h : defaultProblems name state (.confirm message initial) = [])
    (hevent : state.handles event = true) : event ∈ confirmDefaults := by
  obtain ⟨target, htarget⟩ := Option.isSome_iff_exists.mp hevent
  have hmem : event ∈ state.transitions.map (·.1) := List.mem_map_of_mem (mem_of_lookup htarget)
  by_contra hno
  -- the check names the events that are no defaults, and here it names none
  have hextra : event ∈ sorted ((state.transitions.map (·.1)).filter
      fun e => !confirmDefaults.contains e) := by
    simpa [sorted] using ⟨by simpa using hmem, hno⟩
  simp only [defaultProblems] at h
  split at h
  · rename_i hempty
    rw [List.isEmpty_iff.mp hempty] at hextra
    cases hextra
  · exact absurd h (List.cons_ne_nil _ _)

/-- A checked state that asks for a yes or a no is no router, can be left by `esc`, and has
transitions for default events only. -/
theorem handles_of_confirms (hd : problems d (some r) = []) (hstate : d.state? name = some state)
    (hconfirms : state.Confirms message initial) :
    state.onEnter = none ∧ state.handles "esc" = true ∧
      ∀ event, state.handles event = true → event ∈ confirmDefaults := by
  obtain ⟨hprompt, hselect⟩ := hconfirms
  cases fit_of_problems hd hstate with
  | router hnone => rw [hprompt] at hnone; cases hnone
  | answered henter hprompt' hesc hselect' => rw [hselect] at hselect'; cases hselect'
  | unanswered henter hprompt' hesc hselect' hkind =>
    obtain rfl := Option.some.inj (hprompt.symm.trans hprompt')
    obtain ⟨_, hkind⟩ := hkind
    exact ⟨henter, hesc, fun event => isDefault_of_defaultProblems hkind⟩

/-! ### One visit -/

/-- The answer gives its event at once. -/
theorem eventAt_of_confirms (henter : state.onEnter = none)
    (hconfirms : state.Confirms message initial)
    (hshow : (showPrompt d name (.confirm message initial)).Yields ctx s v ctx' s') :
    (eventAt d r name state).Yields ctx s (.str (answerEvent v)) ctx' s' := by
  rw [eventAt_prompt henter hconfirms.1, promptEvent]
  refine Step.yields_bind.mpr ⟨v, ctx', s', hshow, ?_⟩
  rw [answerEvent, hconfirms.2]
  cases v.isNull with
  | true => exact Step.yields_pure.mpr ⟨rfl, rfl, rfl⟩
  | false => exact Step.yields_pure.mpr ⟨rfl, rfl, rfl⟩

theorem moves_of_handled {event : String} (hstate : d.state? a.state = some state)
    (hevent : (eventAt d r a.state state).Yields a.ctx a.session (.str event) ctx' s')
    (hhandles : state.handles event = true) : ∃ b, Moves d r a event b := by
  obtain ⟨target, htarget⟩ := Option.isSome_iff_exists.mp hhandles
  exact ⟨_, moves_of_outcome hstate hevent htarget⟩

theorem visit_fails_of_unhandled {event : String} (hstate : d.state? name = some state)
    (hevent : (eventAt d r name state).Yields ctx s (.str event) ctx' s')
    (hhandles : state.handles event = false) : (visit d r name).Fails ctx s
      (.complaint (.flow (.unhandled d.id (some name) (.str event)))) ctx' s' := by
  unfold visit
  rw [hstate]
  refine Step.fails_bind.mpr (.inr ⟨_, ctx', s', hevent, ?_⟩)
  have hnone : state.target? event = none :=
    Option.isNone_iff_eq_none.mp (Option.isSome_eq_false_iff.mp hhandles)
  simp only [follow, Json.asString?, hnone]
  exact Step.fails_throw.mpr ⟨rfl, rfl, rfl⟩

/-! ### Whole runs -/

/-- A run goes on from where a move inside the flow leads. -/
theorem go_of_leads (h : Leads d r a b) (visits : Nat) :
    (d.go r (visits + 1) a.state).outcome a.ctx a.session
      = (d.go r visits b.state).outcome b.ctx b.session := by
  obtain ⟨hmove, hinside⟩ := h
  have hvisit : (visit d r a.state).outcome a.ctx a.session = ((.ok b.state, b.ctx), b.session) :=
    visit_yields.mpr hmove
  rw [Definition.go, Step.outcome_bind, hvisit]
  dsimp only
  rw [hinside]

/-- A run that reaches a position goes on from there, with the visits that are left. -/
theorem go_of_reaches (h : Reaches d r a b) : ∃ n, ∀ visits,
    (d.go r (visits + n) a.state).outcome a.ctx a.session
      = (d.go r visits b.state).outcome b.ctx b.session := by
  induction h using Relation.ReflTransGen.head_induction_on with
  | refl => exact ⟨0, fun _ => rfl⟩
  | head hlead _ ih =>
    -- every move on the way takes one visit
    obtain ⟨n, hn⟩ := ih
    exact ⟨n + 1, fun visits => (go_of_leads hlead (visits + n)).trans (hn visits)⟩

/-- A run fails where a visit fails, when it is given the visits to come there. -/
theorem runFor_of_fails {start : Option String} {f : Fault}
    (hreach : Reaches d r (d.startAt (d.startState start) ctx s) a)
    (hfails : (visit d r a.state).Fails a.ctx a.session f ctx' s') :
    ∃ n, ∀ visits, n < visits → (d.runFor r visits start).Fails ctx s f ctx' s' := by
  obtain ⟨n, hn⟩ := go_of_reaches hreach
  refine ⟨n, fun visits hvisits => ?_⟩
  obtain ⟨more, rfl⟩ : ∃ more, visits = more + 1 + n := ⟨visits - n - 1, by omega⟩
  have hgo : (d.go r (more + 1) a.state).Fails a.ctx a.session f ctx' s' :=
    Step.fails_bind.mpr (.inl hfails)
  exact (outcome_runFor _ start ctx s).trans ((hn _).trans hgo)

/-- **Cancelled prompts lead on, and answers as far as there are transitions.**  In a checked
flow, a state that asks for a yes or a no without a handler has transitions for default events
only, with `esc` among them.  Wherever a run comes to it, a cancelled prompt leads on, and so does
an answer with a transition; an answer without one makes the run fail. -/
theorem answered_of_checked (hd : problems d (some r) = []) (hstate : d.state? name = some state)
    (hconfirms : state.Confirms message initial) :
    (state.handles "esc" = true ∧
      ∀ event, state.handles event = true → event ∈ confirmDefaults) ∧
    ∀ start ctx s a v ctx' s', Reaches d r (d.startAt (d.startState start) ctx s) a →
      a.state = name →
      (showPrompt d name (.confirm message initial)).Yields a.ctx a.session v ctx' s' →
      (v.isNull = true → ∃ b, Moves d r a "esc" b) ∧
      (v.isNull = false → state.handles (confirmed v) = true →
        ∃ b, Moves d r a (confirmed v) b) ∧
      (v.isNull = false → state.handles (confirmed v) = false →
        ∃ n, ∀ visits, n < visits → (d.runFor r visits start).Fails ctx s
          (.complaint (.flow (.unhandled d.id (some name) (.str (confirmed v))))) ctx' s') := by
  obtain ⟨henter, hesc, hdefaults⟩ := handles_of_confirms hd hstate hconfirms
  refine ⟨⟨hesc, hdefaults⟩, ?_⟩
  rintro start ctx s a v ctx' s' hreach rfl hshow
  have hevent := eventAt_of_confirms (r := r) henter hconfirms hshow
  refine ⟨fun hnull => ?_, fun hnull hhandles => ?_, fun hnull hno => ?_⟩
  · rw [answerEvent, hnull] at hevent
    exact moves_of_handled hstate hevent hesc
  · rw [answerEvent, hnull] at hevent
    exact moves_of_handled hstate hevent hhandles
  · rw [answerEvent, hnull] at hevent
    exact runFor_of_fails hreach (visit_fails_of_unhandled hstate hevent hno)

/-! ### An answer without a transition -/

/-- A state that asks whether one is sure, and has no transition for a no. -/
def sureState : State Unit where
  prompt := some (.confirm (fixed "Sure?") (fixed .null))
  transitions := [("esc", Outcome.exitCommand.word), ("confirm:yes", Outcome.complete.word)]

/-- The flow of this one state. -/
def sureFlow : Definition Unit where
  id := "demo"
  initial := "start"
  states := [("start", sureState)]

/-- One answer is given. -/
def answering (v : Json) : Session where
  answers := [.value v]

theorem problems_sureFlow : problems sureFlow (some []) = [] := by decide +kernel

/-- The flow has no problems; a cancelled prompt leads on, and a no makes every run fail. -/
theorem answered_of_sureFlow :
    problems sureFlow (some []) = [] ∧ sureFlow.state? "start" = some sureState ∧
      sureState.Confirms (fixed "Sure?") (fixed .null) ∧
      (∃ b, Moves sureFlow [] (sureFlow.startAt "start" () (answering .null)) "esc" b) ∧
      ∃ n s', ∀ visits, n < visits →
        (sureFlow.runFor [] visits none).Fails () (answering (.bool false))
          (.complaint (.flow (.unhandled "demo" (some "start") (.str "confirm:no")))) () s' := by
  have hstate : sureFlow.state? "start" = some sureState := rfl
  have hconfirms : sureState.Confirms (fixed "Sure?") (fixed .null) := ⟨rfl, rfl⟩
  have hlaw := (answered_of_checked problems_sureFlow hstate hconfirms).2 none ()
  refine ⟨problems_sureFlow, hstate, hconfirms, ?_, ?_⟩
  · exact (hlaw (answering .null) _ .null () _ .refl rfl (show _ = _ from rfl)).1 rfl
  · obtain ⟨n, hn⟩ := (hlaw (answering (.bool false)) _ (.bool false) () _ .refl rfl
      (show _ = _ from rfl)).2.2 rfl rfl
    exact ⟨n, _, hn⟩

/-- A flow without problems may have no transition for an answer. -/
theorem not_covered_of_confirms : ¬ ∀ (d : Definition Unit) (r : Registry Unit) (name : String)
    (state : State Unit) (message initial : Projection Unit Json),
    problems d (some r) = [] → d.state? name = some state → state.Confirms message initial →
      ∀ start ctx s event ctx' s', ¬ (d.run r start).Fails ctx s
        (.complaint (.flow (.unhandled d.id (some name) event))) ctx' s' := by
  intro h
  have hcheck : check sureFlow [] = .ok () := check_of_problems problems_sureFlow
  have hfails : ∃ s', (sureFlow.run [] none).Fails () (answering (.bool false))
      (.complaint (.flow (.unhandled "demo" (some "start") (.str "confirm:no")))) () s' := by
    unfold Step.Fails
    rw [Definition.run, hcheck]
    exact ⟨_, rfl⟩
  obtain ⟨s', hfails⟩ := hfails
  exact h sureFlow [] "start" sureState _ _ problems_sureFlow rfl ⟨rfl, rfl⟩
    none () _ _ () s' hfails

end BuildDesk.Flow
