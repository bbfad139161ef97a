/-
The states that a run of a flow comes by.

A run goes from state to state by events.  This file makes one visit a labelled
move between positions — a state with a context and a session — and a run the
closure of such moves:

* `Moves` — an event leads from one position to another, or to the word of an outcome;
* `Leads`, `Reaches` — one move inside the flow, and any number of them;
* `Ends` — the move that leaves the flow;
* `go_yields`, `go_fails` — a run ends by a move from a position that it reaches, or
  a visit there fails, or it was given too few visits;
* `run_yields`, `runOn_yields` — the same runs, checked and as a part of a command.

So what holds where a run starts and is kept by every move holds wherever it comes
(`Reaches.invariant`).
-/
import BuildDesk.Proofs.Flow.Visit
import Mathlib.Logic.Relation

namespace BuildDesk.Flow

variable {κ : Type} {d : Definition κ} {r : Registry κ}

/-- Where a run is: a state, the context and the session. -/
structure Position (κ : Type) where
  state : String
  ctx : κ
  session : Session

/-- A visit of the state at `a` gives an event that leads to `b`.  When the event leads
out of the flow, the state of `b` is the word of the outcome. -/
def Moves (d : Definition κ) (r : Registry κ) (a : Position κ) (event : String)
    (b : Position κ) : Prop :=
  ∃ state s, d.state? a.state = some state ∧ state.target? event = some b.state ∧
    (eventAt d r a.state state).Yields a.ctx a.session (.str event) b.ctx s ∧
    b.session = { s with log := .step d.id a.state event b.state :: s.log }

/-- A move that stays in the flow. -/
def Leads (d : Definition κ) (r : Registry κ) (a b : Position κ) : Prop :=
  (∃ event, Moves d r a event b) ∧ Outcome.ofWord? b.state = none

/-- Any number of moves inside the flow. -/
def Reaches (d : Definition κ) (r : Registry κ) : Position κ → Position κ → Prop :=
  Relation.ReflTransGen (Leads d r)

/-- A move that leaves the flow. -/
def Ends (d : Definition κ) (r : Registry κ) (a : Position κ) (outcome : Outcome)
    (b : Position κ) : Prop :=
  (∃ event, Moves d r a event b) ∧ Outcome.ofWord? b.state = some outcome

theorem Outcome.word_of_ofWord? {word : String} {outcome : Outcome}
    (h : Outcome.ofWord? word = some outcome) : word = outcome.word := by
  have hfound := List.find?_some h
  exact (beq_iff_eq.mp hfound).symm

/-! ### One visit -/

/-- An event that comes of a state with a transition for it is a move. -/
theorem moves_of_outcome {name event target : String} {state : State κ} {ctx ctx' : κ}
    {s s' : Session} (hstate : d.state? name = some state)
    (hevent : (eventAt d r name state).outcome ctx s = ((.ok (.str event), ctx'), s'))
    (htarget : state.target? event = some target) :
    Moves d r ⟨name, ctx, s⟩ event
      ⟨target, ctx', { s' with log := .step d.id name event target :: s'.log }⟩ :=
  ⟨state, s', hstate, htarget, hevent, rfl⟩

/-- A position has one move at most. -/
theorem Moves.unique {a b b' : Position κ} {event event' : String} (h : Moves d r a event b)
    (h' : Moves d r a event' b') : event = event' ∧ b = b' := by
  obtain ⟨state, s, hstate, htarget, hevent, hsession⟩ := h
  obtain ⟨state', s', hstate', htarget', hevent', hsession'⟩ := h'
  obtain rfl := Option.some.inj (hstate.symm.trans hstate')
  obtain ⟨hword, hctx, rfl⟩ := Step.Yields.unique hevent hevent'
  obtain rfl := Json.str.inj hword
  have hname : b.state = b'.state := Option.some.inj (htarget.symm.trans htarget')
  refine ⟨rfl, ?_⟩
  cases b
  cases b'
  simp_all

theorem visit_yields {name target : String} {ctx ctx' : κ} {s s' : Session} :
    (visit d r name).Yields ctx s target ctx' s' ↔
      ∃ event, Moves d r ⟨name, ctx, s⟩ event ⟨target, ctx', s'⟩ := by
  unfold visit Moves
  rcases hstate : d.state? name with _ | state
  · simp [Step.blame]
  · simp only [Step.yields_bind, follow_yields]
    constructor
    · rintro ⟨_, ctx₁, s₁, hev, word, rfl, ht, rfl, rfl⟩
      exact ⟨word, state, s₁, rfl, ht, hev, rfl⟩
    · rintro ⟨word, state', s₁, hstate', ht, hev, rfl⟩
      obtain rfl : state = state' := Option.some.inj hstate'
      exact ⟨_, _, s₁, hev, word, rfl, ht, rfl, rfl⟩

theorem leads_of_outcome {name target : String} {ctx ctx' : κ} {s s' : Session}
    (h : (visit d r name).outcome ctx s = ((.ok target, ctx'), s'))
    (hin : Outcome.ofWord? target = none) : Leads d r ⟨name, ctx, s⟩ ⟨target, ctx', s'⟩ :=
  ⟨visit_yields.mp h, hin⟩

/-! ### Whole runs -/

theorem Reaches.invariant {P : Position κ → Prop} {a b : Position κ} (h : Reaches d r a b)
    (start : P a) (kept : ∀ x y, P x → Leads d r x y → P y) : P b := by
  induction h with
  | refl => exact start
  | tail _ hxy ih => exact kept _ _ ih hxy

/-- A run that ends well leaves the flow from a position that it reaches. -/
theorem go_yields {visits : Nat} {name : String} {ending : Ending} {ctx ctx' : κ}
    {s s' : Session} (h : (d.go r visits name).Yields ctx s ending ctx' s') :
    ∃ a b, Reaches d r ⟨name, ctx, s⟩ a ∧ a.state = ending.state ∧
      Ends d r a ending.outcome b ∧ b.ctx = ctx' ∧ b.session = s' := by
  induction visits generalizing name ctx s with
  | zero => exact absurd h Step.yields_throw
  | succ visits ih =>
    simp only [Definition.go, Step.yields_bind] at h
    obtain ⟨target, ctx₁, s₁, hvisit, h⟩ := h
    have hmove := visit_yields.mp hvisit
    rcases hout : Outcome.ofWord? target with _ | outcome
    · simp only [hout] at h
      -- the rest of the run has one visit less, and the first move goes before it
      obtain ⟨a, b, hreach, hrest⟩ := ih h
      have hlead : Leads d r ⟨name, ctx, s⟩ ⟨target, ctx₁, s₁⟩ := ⟨hmove, hout⟩
      exact ⟨a, b, Relation.ReflTransGen.head hlead hreach, hrest⟩
    · simp only [hout, Step.yields_pure] at h
      obtain ⟨rfl, rfl, rfl⟩ := h
      exact ⟨_, ⟨target, _, _⟩, Relation.ReflTransGen.refl, rfl, ⟨hmove, hout⟩, rfl, rfl⟩

/-- A run that fails was given too few visits, or the visit of a position that it
reaches fails. -/
theorem go_fails {visits : Nat} {name : String} {f : Fault} {ctx ctx' : κ} {s s' : Session}
    (h : (d.go r visits name).Fails ctx s f ctx' s') :
    f = .stalled ∨ ∃ a, Reaches d r ⟨name, ctx, s⟩ a ∧
      (visit d r a.state).Fails a.ctx a.session f ctx' s' := by
  induction visits generalizing name ctx s with
  | zero => exact .inl (Step.fails_throw.mp h).1
  | succ visits ih =>
    simp only [Definition.go, Step.fails_bind] at h
    rcases h with h | ⟨target, ctx₁, s₁, hvisit, h⟩
    · exact .inr ⟨_, Relation.ReflTransGen.refl, h⟩
    · rcases hout : Outcome.ofWord? target with _ | outcome
      · simp only [hout] at h
        rcases ih h with h | ⟨a, hreach, hfail⟩
        · exact .inl h
        · have hlead : Leads d r ⟨name, ctx, s⟩ ⟨target, ctx₁, s₁⟩ :=
            ⟨visit_yields.mp hvisit, hout⟩
          exact .inr ⟨a, Relation.ReflTransGen.head hlead hreach, hfail⟩
      · simp [hout] at h

/-- A checked run is a run with the visits that its script allows. -/
theorem run_yields {start : Option String} {ending : Ending} {ctx ctx' : κ} {s s' : Session} :
    (d.run r start).Yields ctx s ending ctx' s' ↔
      check d r = .ok () ∧ (d.runFor r (visitsFor s) start).Yields ctx s ending ctx' s' := by
  simp only [Definition.run, Step.yields_bind, Step.yields_ofDesk, Desk.yields_ofExcept,
    Step.yields_session]
  constructor
  · rintro ⟨_, _, _, ⟨⟨hcheck, rfl⟩, rfl⟩, _, _, _, ⟨rfl, rfl, rfl⟩, h⟩
    exact ⟨hcheck, h⟩
  · rintro ⟨hcheck, h⟩
    exact ⟨_, _, _, ⟨⟨hcheck, rfl⟩, rfl⟩, _, _, _, ⟨rfl, rfl, rfl⟩, h⟩

theorem run_fails {start : Option String} {f : Fault} {ctx ctx' : κ} {s s' : Session}
    (h : (d.run r start).Fails ctx s f ctx' s') :
    (check d r = .error f ∧ s' = s) ∨
      check d r = .ok () ∧ (d.runFor r (visitsFor s) start).Fails ctx s f ctx' s' := by
  rcases Step.fails_bind.mp h with hcheck | ⟨_, ctx₁, s₁, hcheck, hrest⟩
  · exact .inl (Desk.fails_ofExcept.mp (Step.fails_ofDesk.mp hcheck).1)
  · obtain ⟨hpart, rfl⟩ := Step.yields_ofDesk.mp hcheck
    obtain ⟨hfine, rfl⟩ := Desk.yields_ofExcept.mp hpart
    exact .inr ⟨hfine, hrest⟩

/-- A run logs where it starts, and goes on from there. -/
theorem outcome_runFor (visits : Nat) (start : Option String) (ctx : κ) (s : Session) :
    (d.runFor r visits start).outcome ctx s = (d.go r visits (d.startState start)).outcome ctx
      { s with log := .start d.id (d.startState start) :: s.log } := rfl

/-- As a part of a command a run gives its context besides its ending. -/
theorem runOn_yields {start : Option String} {ending : Ending} {ctx ctx' : κ} {s s' : Session} :
    (d.runOn r ctx start).Yields s (ending, ctx') s' ↔
      (d.run r start).Yields ctx s ending ctx' s' := by
  show (((d.run r start).outcome ctx s).1.1.map fun e => (e, ((d.run r start).outcome ctx s).1.2),
    ((d.run r start).outcome ctx s).2) = (Except.ok (ending, ctx'), s') ↔ _
  unfold Step.Yields
  rcases (d.run r start).outcome ctx s with ⟨⟨e | e, c⟩, t⟩
  · simp [Except.map]
  · simp [Except.map, and_assoc]

end BuildDesk.Flow
