/-
Runs that are taken up again are one run.

A flow may be run in a loop: when a run ends at the root away from a state called home, the next
run starts at home with the context that the last one left.  This is the same as a single run of
the flow whose transitions to the root lead home instead, but for those of home itself:

* `Definition.homing` — the flow with its transitions turned home;
* `Definition.loop` — runs of the flow, one after another;
* `Goes` — where the loop comes in one step: it moves, or it starts anew at home;
* `Position.Same` — the same state, context and session, but for the steps that the flow logs;
* `steps_homing`, `steps_of_homing` — the loop and the single run come by the same positions,
  one by one;
* `homing_of_loop`, `homing_of_loop_fails` — so they end in the same way.

No part of a run looks at the log, so what the flow logs of its own steps makes no difference.
-/
import BuildDesk.Proofs.Aside.Flows
import BuildDesk.Proofs.Flow.Shallow

namespace BuildDesk

/-! ### The same but for the steps of a flow -/

/-- The event is a start or a step of the flow. -/
def Event.isStepOf (flow : String) : Event → Bool
  | .start id _ => id == flow
  | .step id _ _ _ => id == flow
  | _ => false

/-- What is logged besides the steps of a flow. -/
def Session.logBut (flow : String) (s : Session) : List Event :=
  s.log.filter fun e => !e.isStepOf flow

/-- The sessions differ in the steps of a flow that they have logged, if at all. -/
structure Session.SameBut (flow : String) (s t : Session) : Prop where
  rest : t = { s with log := t.log }
  log : t.logBut flow = s.logBut flow

namespace Session

variable {flow : String} {s t u : Session}

theorem SameBut.refl (s : Session) : s.SameBut flow s := ⟨rfl, rfl⟩

theorem SameBut.symm (h : s.SameBut flow t) : t.SameBut flow s where
  rest := by
    obtain ⟨hrest, -⟩ := h
    rw [hrest]
  log := h.log.symm

theorem SameBut.trans (h : s.SameBut flow t) (h' : t.SameBut flow u) : s.SameBut flow u where
  rest := by
    obtain ⟨hrest, -⟩ := h
    obtain ⟨hrest', -⟩ := h'
    rw [hrest', hrest]
  log := h'.log.trans h.log

theorem sameBut_logged {e : Event} (he : e.isStepOf flow = true) (s : Session) :
    s.SameBut flow { s with log := e :: s.log } :=
  ⟨rfl, List.filter_cons_of_neg (by rw [he]; exact Bool.false_ne_true)⟩

/-- A step of the flow makes no difference. -/
theorem sameBut_step (flow state event target : String) (s : Session) :
    s.SameBut flow { s with log := .step flow state event target :: s.log } :=
  sameBut_logged (e := .step flow state event target) (beq_self_eq_true flow) s

theorem sameBut_start (flow state : String) (s : Session) :
    s.SameBut flow { s with log := .start flow state :: s.log } :=
  sameBut_logged (e := .start flow state) (beq_self_eq_true flow) s

end Session

/-- The part does not look at the log. -/
def Flow.Step.IgnoresLog {κ α : Type} (part : Flow.Step κ α) : Prop :=
  ∀ old, part.Overlooks id old

/-- What does not look at the log comes to the same, whatever steps of the flow are logged. -/
theorem Flow.Step.IgnoresLog.sameBut {κ α : Type} {part : Flow.Step κ α} {flow : String}
    {s t : Session} (h : part.IgnoresLog) (hsame : s.SameBut flow t) (ctx : κ) :
    (part.outcome ctx t).1 = (part.outcome ctx s).1 ∧
      (part.outcome ctx s).2.SameBut flow (part.outcome ctx t).2 := by
  -- Both sessions are one with an empty log, with their logs put aside.
  let base : Session := { s with log := [] }
  have hs : s = base.aside id s.log := rfl
  have ht : t = base.aside id t.log := hsame.rest
  have houts : part.outcome ctx s =
      ((part.outcome ctx base).1, (part.outcome ctx base).2.aside id s.log) := h s.log ctx base
  have houtt : part.outcome ctx t =
      ((part.outcome ctx base).1, (part.outcome ctx base).2.aside id t.log) :=
    (congrArg (part.outcome ctx) ht).trans (h t.log ctx base)
  rw [houts, houtt]
  refine ⟨rfl, rfl, ?_⟩
  show List.filter _ (_ ++ t.log) = List.filter _ (_ ++ s.log)
  rw [List.filter_append, List.filter_append]
  exact congrArg _ hsame.log

namespace Flow

variable {κ : Type}

/-- Where a transition of a state leads when those to the root are turned home. -/
def homeward (home name target : String) : String :=
  if target = Outcome.root.word ∧ name ≠ home then home else target

/-- The state with its transitions turned home. -/
def State.homing (home name : String) (state : State κ) : State κ :=
  { state with
    transitions := state.transitions.map fun (event, target) =>
      (event, homeward home name target) }

/-- The flow with all transitions to the root, but those of home, turned home. -/
def Definition.homing (home : String) (d : Definition κ) : Definition κ :=
  { d with states := d.states.map fun (name, state) => (name, state.homing home name) }

/-- Runs of the flow: one that ends at the root away from home is followed by one that starts
at home. -/
def Definition.loop (d : Definition κ) (r : Registry κ) (home : String) :
    Nat → κ → Option String → Desk Outcome
  | 0, _, _ => throw .stalled
  | more + 1, ctx, start => do
    let (ending, ctx) ← d.runOn r ctx start
    if ending.outcome == .root && ending.state != home then d.loop r home more ctx (some home)
    else pure ending.outcome

/-- Where a run starts, which it logs. -/
def Definition.startAt (d : Definition κ) (name : String) (ctx : κ) (s : Session) : Position κ :=
  ⟨name, ctx, { s with log := .start d.id name :: s.log }⟩

/-- The loop comes from one position to the next: it moves inside the flow, or it starts anew at
home. -/
def Goes (d : Definition κ) (r : Registry κ) (home : String) (a b : Position κ) : Prop :=
  Leads d r a b ∨ ∃ c, Ends d r a .root c ∧ a.state ≠ home ∧ b = d.startAt home c.ctx c.session

/-- The loop ends. -/
def Stays (d : Definition κ) (r : Registry κ) (home : String) (a : Position κ)
    (outcome : Outcome) (b : Position κ) : Prop :=
  Ends d r a outcome b ∧ (outcome = .root → a.state = home)

/-- So many steps lead from one position to another. -/
inductive Steps {α : Type} (R : α → α → Prop) : Nat → α → α → Prop
  | none (a : α) : Steps R 0 a a
  | step {a b c : α} {n : Nat} (first : R a b) (rest : Steps R n b c) : Steps R (n + 1) a c

theorem Steps.reflTransGen {α : Type} {R : α → α → Prop} {n : Nat} {a b : α}
    (h : Steps R n a b) : Relation.ReflTransGen R a b := by
  induction h with
  | none => exact .refl
  | step first _ ih => exact .head first ih

theorem exists_steps {α : Type} {R : α → α → Prop} {a b : α}
    (h : Relation.ReflTransGen R a b) : ∃ n, Steps R n a b := by
  induction h using Relation.ReflTransGen.head_induction_on with
  | refl => exact ⟨0, .none b⟩
  | head first _ ih =>
    obtain ⟨n, hn⟩ := ih
    exact ⟨n + 1, .step first hn⟩

/-- When each step of one relation is matched by a step of another, so is any number. -/
theorem Steps.simulate {α β : Type} {R : α → α → Prop} {S : β → β → Prop} {T : α → β → Prop}
    (hstep : ∀ {a b a'}, T a a' → R a b → ∃ b', S a' b' ∧ T b b') {n : Nat} {a b : α} {a' : β}
    (h : Steps R n a b) (hT : T a a') : ∃ b', Steps S n a' b' ∧ T b b' := by
  induction h generalizing a' with
  | none => exact ⟨a', .none a', hT⟩
  | step first _ ih =>
    obtain ⟨c, hc, hTc⟩ := hstep hT first
    obtain ⟨b', hrest, hTb⟩ := ih hTc
    exact ⟨b', .step hc hrest, hTb⟩

/-- The positions differ in the steps of a flow that are logged, if at all. -/
structure Position.Same (flow : String) (a b : Position κ) : Prop where
  state : b.state = a.state
  ctx : b.ctx = a.ctx
  session : a.session.SameBut flow b.session

/-- No handler looks at the log. -/
def Registry.IgnoresLog (r : Registry κ) : Prop := ∀ old, r.Overlooks id old

section

variable {d : Definition κ} {r : Registry κ} {home name event : String} {state : State κ}
variable {a b a' b' : Position κ} {outcome : Outcome}

theorem Position.Same.symm {flow : String} (h : a.Same flow b) : b.Same flow a :=
  ⟨h.state.symm, h.ctx.symm, h.session.symm⟩

/-! ### Where a visit leads -/

theorem lookup_map_snd {α β : Type} (f : String → α → β) (entries : List (String × α))
    (name : String) : (entries.map fun entry => (entry.1, f entry.1 entry.2)).lookup name =
      (entries.lookup name).map (f name) := by
  induction entries with
  | nil => rfl
  | cons entry rest ih =>
    obtain ⟨key, value⟩ := entry
    rw [List.map_cons, List.lookup_cons, List.lookup_cons]
    by_cases hkey : name = key
    · subst hkey
      rw [beq_self_eq_true]
      rfl
    · rw [beq_false_of_ne hkey]
      exact ih

theorem state?_homing (home name : String) (d : Definition κ) :
    (d.homing home).state? name = (d.state? name).map (State.homing home name) :=
  lookup_map_snd (State.homing home) d.states name

theorem target?_homing (home name event : String) (state : State κ) :
    (state.homing home name).target? event = (state.target? event).map (homeward home name) :=
  lookup_map_snd (fun _ => homeward home name) state.transitions event

/-- The flow itself and with its transitions turned home: a move of one is a move of the other,
which leads home when the first leads to the root. -/
theorem moves_homing (home : String) (h : Moves d r a event b) :
    ∃ c, Moves (d.homing home) r a event c ∧ c.state = homeward home a.state b.state ∧
      c.ctx = b.ctx ∧ b.session.SameBut d.id c.session := by
  obtain ⟨state, s, hstate, htarget, hevent, hsession⟩ := h
  have hturned : (state.homing home a.state).target? event =
      some (homeward home a.state b.state) := by
    rw [target?_homing, htarget, Option.map_some]
  refine ⟨⟨homeward home a.state b.state, b.ctx,
    { s with log := .step d.id a.state event (homeward home a.state b.state) :: s.log }⟩,
    ⟨state.homing home a.state, s, by rw [state?_homing, hstate, Option.map_some], hturned,
      hevent, rfl⟩, rfl, rfl, ?_⟩
  rw [hsession]
  exact (Session.sameBut_step _ _ _ _ s).symm.trans (Session.sameBut_step _ _ _ _ s)

theorem moves_of_homing (h : Moves (d.homing home) r a event b) :
    ∃ c, Moves d r a event c ∧ b.state = homeward home a.state c.state ∧ c.ctx = b.ctx ∧
      c.session.SameBut d.id b.session := by
  obtain ⟨turned, s, hturned, htarget, hevent, hsession⟩ := h
  rw [state?_homing] at hturned
  obtain ⟨state, hstate, rfl⟩ := Option.map_eq_some_iff.mp hturned
  rw [target?_homing] at htarget
  obtain ⟨target, hto, hturn⟩ := Option.map_eq_some_iff.mp htarget
  refine ⟨⟨target, b.ctx, { s with log := .step d.id a.state event target :: s.log }⟩,
    ⟨state, s, hstate, hto, hevent, rfl⟩, hturn.symm, rfl, ?_⟩
  rw [hsession]
  exact (Session.sameBut_step _ _ _ _ s).symm.trans (Session.sameBut_step _ _ _ _ s)

/-- A visit that fails, fails in the same way. -/
theorem visit_homing_fails {ctx ctx' : κ} {s s' : Session} {f : Fault} (home : String)
    (h : (visit d r name).Fails ctx s f ctx' s') :
    (visit (d.homing home) r name).Fails ctx s f ctx' s' := by
  unfold visit at h ⊢
  rw [state?_homing]
  rcases hstate : d.state? name with _ | state
  · rw [hstate] at h
    exact h
  · rw [hstate] at h
    dsimp only [Option.map_some] at h ⊢
    rcases Step.fails_bind.mp h with hevent | ⟨event, ctx₁, s₁, hevent, hfollow⟩
    · exact Step.fails_bind.mpr (.inl hevent)
    · refine Step.fails_bind.mpr (.inr ⟨event, ctx₁, s₁, hevent, ?_⟩)
      obtain ⟨-, hnone⟩ := follow_fails hfollow
      unfold follow at hfollow ⊢
      rcases hword : event.asString? with _ | word
      · rw [hword] at hfollow
        exact hfollow
      · have hev : event = .str word := by
          cases event <;> simp_all [Json.asString?]
        rw [hword] at hfollow
        dsimp only at hfollow ⊢
        rw [target?_homing, hnone word hev]
        rw [hnone word hev] at hfollow
        exact hfollow

/-- A visit comes to the same in the same position. -/
theorem moves_same (hr : r.IgnoresLog) (hsame : a.Same d.id a') (h : Moves d r a event b) :
    ∃ b', Moves d r a' event b' ∧ b.Same d.id b' := by
  obtain ⟨state, s, hstate, htarget, hevent, hsession⟩ := h
  have hignores : (eventAt d r a.state state).IgnoresLog := fun old => overlooks_eventAt (hr old) _
  obtain ⟨hresult, hleft⟩ := hignores.sameBut hsame.session a.ctx
  unfold Step.Yields at hevent
  rw [hevent] at hresult hleft
  refine ⟨⟨b.state, b.ctx, { ((eventAt d r a.state state).outcome a.ctx a'.session).2 with
      log := .step d.id a'.state event b.state ::
        ((eventAt d r a.state state).outcome a.ctx a'.session).2.log }⟩,
    ⟨state, ((eventAt d r a.state state).outcome a.ctx a'.session).2, ?_, htarget, ?_, rfl⟩,
    rfl, rfl, ?_⟩
  · rw [hsame.state, hstate]
  · rw [hsame.state, hsame.ctx]
    exact Prod.ext hresult rfl
  · rw [hsession]
    refine (Session.sameBut_step _ _ _ _ s).symm.trans (hleft.trans ?_)
    exact Session.sameBut_step _ _ _ _ _

theorem visit_same_fails {ctx : κ} {f : Fault} {s : Session} (hr : r.IgnoresLog)
    (hsame : a.Same d.id a') (h : (visit d r a.state).Fails a.ctx a.session f ctx s) :
    ∃ s', (visit d r a'.state).Fails a'.ctx a'.session f ctx s' ∧ s.SameBut d.id s' := by
  have hignores : (visit d r a.state).IgnoresLog := fun old => overlooks_visit (hr old)
  obtain ⟨hresult, hleft⟩ := hignores.sameBut hsame.session a.ctx
  unfold Step.Fails at h
  rw [h] at hresult hleft
  refine ⟨_, ?_, hleft⟩
  rw [hsame.state, hsame.ctx]
  exact Prod.ext hresult rfl

/-! ### One by one -/

theorem homeward_eq {target : String} (h : ¬ (target = Outcome.root.word ∧ name ≠ home)) :
    homeward home name target = target := if_neg h

/-- Each step of the loop is a step of the single run. -/
theorem goes_homing (hr : r.IgnoresLog) (hhome : Outcome.ofWord? home = none)
    (hsame : a.Same d.id a') (h : Goes d r home a b) :
    ∃ b', Leads (d.homing home) r a' b' ∧ b.Same d.id b' := by
  rcases h with ⟨⟨event, hmove⟩, hin⟩ | ⟨c, ⟨⟨event, hmove⟩, hout⟩, haway, rfl⟩
  · obtain ⟨b₁, hmove₁, hb₁⟩ := moves_same hr hsame hmove
    obtain ⟨b', hmove', hstate, hctx, hsession⟩ := moves_homing home hmove₁
    have hkept : b'.state = b₁.state := by
      refine hstate.trans (homeward_eq fun hroot => ?_)
      rw [← hb₁.state, hroot.1, Outcome.ofWord?_word] at hin
      cases hin
    refine ⟨b', ⟨⟨event, hmove'⟩, by rw [hkept, hb₁.state, hin]⟩, hkept.trans hb₁.state,
      hctx.trans hb₁.ctx, hb₁.session.trans hsession⟩
  · obtain ⟨c₁, hmove₁, hc₁⟩ := moves_same hr hsame hmove
    obtain ⟨b', hmove', hstate, hctx, hsession⟩ := moves_homing home hmove₁
    have hturned : b'.state = home := by
      refine hstate.trans (if_pos ⟨?_, ?_⟩)
      · exact hc₁.state.trans (Outcome.word_of_ofWord? hout)
      · exact hsame.state ▸ haway
    refine ⟨b', ⟨⟨event, hmove'⟩, by rw [hturned, hhome]⟩, hturned, hctx.trans hc₁.ctx, ?_⟩
    exact (Session.sameBut_start _ _ _).symm.trans (hc₁.session.trans hsession)

/-- Each step of the single run is a step of the loop. -/
theorem goes_of_homing (hr : r.IgnoresLog) (hsame : a'.Same d.id a)
    (h : Leads (d.homing home) r a' b') : ∃ b, Goes d r home a b ∧ b'.Same d.id b := by
  obtain ⟨⟨event, hmove'⟩, hin⟩ := h
  obtain ⟨c, hmove, hstate, hctx, hsession⟩ := moves_of_homing hmove'
  obtain ⟨b, hmove₁, hb⟩ := moves_same hr hsame hmove
  have hto : b'.Same d.id ⟨b'.state, b.ctx, b.session⟩ :=
    ⟨rfl, hb.ctx.trans hctx, hsession.symm.trans hb.session⟩
  -- A move that was turned home is where the loop starts anew; all others are moves of the flow.
  by_cases hroot : c.state = Outcome.root.word ∧ a'.state ≠ home
  · have hturned : b'.state = home := hstate.trans (if_pos hroot)
    refine ⟨d.startAt home b.ctx b.session, .inr ⟨b, ⟨⟨event, hmove₁⟩, ?_⟩, ?_, rfl⟩,
      hturned.symm, hto.ctx, hto.session.trans (Session.sameBut_start _ _ _)⟩
    · rw [hb.state, hroot.1, Outcome.ofWord?_word]
    · exact hsame.state ▸ hroot.2
  · have hkept : b'.state = c.state := hstate.trans (homeward_eq hroot)
    have hword : b.state = b'.state := hb.state.trans hkept.symm
    exact ⟨b, .inl ⟨⟨event, hmove₁⟩, by rw [hword, hin]⟩, hword, hto.ctx, hto.session⟩

/-- Where the loop ends, so does the single run. -/
theorem stays_homing (hr : r.IgnoresLog) (hsame : a.Same d.id a')
    (h : Stays d r home a outcome b) :
    ∃ b', Ends (d.homing home) r a' outcome b' ∧ b.Same d.id b' := by
  obtain ⟨⟨⟨event, hmove⟩, hout⟩, hroot⟩ := h
  obtain ⟨b₁, hmove₁, hb₁⟩ := moves_same hr hsame hmove
  obtain ⟨b', hmove', hstate, hctx, hsession⟩ := moves_homing home hmove₁
  -- At the root the loop ends in home only, whose transitions are not turned.
  have hkept : b'.state = b₁.state := by
    refine hstate.trans (homeward_eq fun hturn => hturn.2 ?_)
    rw [← hb₁.state, hturn.1, Outcome.ofWord?_word] at hout
    exact hsame.state.trans (hroot (Option.some.inj hout).symm)
  exact ⟨b', ⟨⟨event, hmove'⟩, by rw [hkept, hb₁.state, hout]⟩, hkept.trans hb₁.state,
    hctx.trans hb₁.ctx, hb₁.session.trans hsession⟩

theorem Position.Same.refl {flow : String} (a : Position κ) : a.Same flow a :=
  ⟨rfl, rfl, .refl _⟩

/-- The loop and the single run come by the same positions, one by one. -/
theorem steps_homing (hr : r.IgnoresLog) (hhome : Outcome.ofWord? home = none) {n : Nat}
    (h : Steps (Goes d r home) n a b) :
    ∃ b', Steps (Leads (d.homing home) r) n a b' ∧ b.Same d.id b' :=
  h.simulate (fun hsame hstep => goes_homing hr hhome hsame hstep) (.refl a)

theorem steps_of_homing (hr : r.IgnoresLog) {n : Nat}
    (h : Steps (Leads (d.homing home) r) n a b') :
    ∃ b, Steps (Goes d r home) n a b ∧ b'.Same d.id b :=
  h.simulate (fun hsame hstep => goes_of_homing hr hsame hstep) (.refl a)

/-! ### The end of a run -/

theorem Leads.unique {c : Position κ} (h : Leads d r a b) (h' : Leads d r a c) : b = c := by
  obtain ⟨⟨event, hb⟩, -⟩ := h
  obtain ⟨⟨event', hc⟩, -⟩ := h'
  exact (hb.unique hc).2

/-- A run has one place where it can stop. -/
theorem reaches_unique (ha : Reaches d r a b) (hb : Reaches d r a b')
    (hstop : ∀ c, ¬ Leads d r b c) (hstop' : ∀ c, ¬ Leads d r b' c) : b = b' := by
  -- Of two positions of a run one comes after the other, and nothing comes after a last one.
  have hunique : Relator.RightUnique (Leads d r) := fun _ _ _ hy hz => hy.unique hz
  rcases Relation.ReflTransGen.total_of_right_unique hunique ha hb with h | h
  · rcases Relation.ReflTransGen.cases_head h with rfl | ⟨c, hc, -⟩
    · rfl
    · exact absurd hc (hstop c)
  · rcases Relation.ReflTransGen.cases_head h with rfl | ⟨c, hc, -⟩
    · rfl
    · exact absurd hc (hstop' c)

theorem Ends.stops (h : Ends d r a outcome b) : ∀ c, ¬ Leads d r a c := by
  rintro c ⟨⟨event, hmove⟩, hin⟩
  obtain ⟨⟨event', hmove'⟩, hout⟩ := h
  obtain rfl := (hmove.unique hmove').2
  rw [hin] at hout
  cases hout

theorem stops_of_fails {f : Fault} {ctx : κ} {s : Session}
    (h : (visit d r a.state).Fails a.ctx a.session f ctx s) (b : Position κ) (event : String) :
    ¬ Moves d r a event b := by
  intro hmove
  have hyields : (visit d r a.state).Yields a.ctx a.session b.state b.ctx b.session :=
    visit_yields.mpr ⟨event, hmove⟩
  have hboth := h.symm.trans hyields
  cases hboth

/-- The loop has one way to go on. -/
theorem Goes.unique {c : Position κ} (h : Goes d r home a b) (h' : Goes d r home a c) : b = c := by
  rcases h with h | ⟨b₁, hb, -, rfl⟩
  · rcases h' with h' | ⟨c₁, hc, -⟩
    · exact h.unique h'
    · exact absurd h (hc.stops b)
  · rcases h' with h' | ⟨c₁, hc, -, rfl⟩
    · exact absurd h' (hb.stops c)
    · obtain ⟨⟨event, hb⟩, -⟩ := hb
      obtain ⟨⟨event', hc⟩, -⟩ := hc
      rw [(hb.unique hc).2]

variable {start : Option String} {ctx ctx' : κ} {s s' : Session} {f : Fault}

theorem runOn_fails : (d.runOn r ctx start).Fails s f s' ↔
    ∃ ctx', (d.run r start).Fails ctx s f ctx' s' := by
  show (((d.run r start).outcome ctx s).1.1.map fun e => (e, ((d.run r start).outcome ctx s).1.2),
    ((d.run r start).outcome ctx s).2) = (Except.error f, s') ↔ _
  unfold Step.Fails
  rcases (d.run r start).outcome ctx s with ⟨⟨e | e, c⟩, t⟩
  · simp [Except.map]
  · simp [Except.map]

/-- A run that ends well leaves the flow where it can. -/
theorem reaches_of_run {ending : Ending} (h : (d.run r start).Yields ctx s ending ctx' s') :
    ∃ a b, Reaches d r (d.startAt (d.startState start) ctx s) a ∧ a.state = ending.state ∧
      Ends d r a ending.outcome b ∧ b.ctx = ctx' ∧ b.session = s' := by
  obtain ⟨-, hrun⟩ := run_yields.mp h
  exact go_yields hrun

theorem reaches_of_run_fails (hcheck : check d r = .ok ()) (hf : f ≠ .stalled)
    (h : (d.run r start).Fails ctx s f ctx' s') :
    ∃ a, Reaches d r (d.startAt (d.startState start) ctx s) a ∧
      (visit d r a.state).Fails a.ctx a.session f ctx' s' := by
  rcases run_fails h with ⟨hbad, -⟩ | ⟨-, hrun⟩
  · rw [hcheck] at hbad
    cases hbad
  · rcases go_fails hrun with hstalled | hfails
    · exact absurd hstalled hf
    · exact hfails

/-- The run of a checked flow does not run out of visits. -/
def Definition.Returns (d : Definition κ) (r : Registry κ) : Prop :=
  check d r = .ok () ∧ ∀ start ctx s f ctx' s',
    (d.run r start).Fails ctx s f ctx' s' → f ≠ .stalled

theorem check_of_problems (h : problems d (some r) = []) : check d r = .ok () := by
  unfold check
  rw [h]

/-- Runs of a flow without problems come to an end when its handlers do. -/
theorem returns_of_shallow (hchecked : problems d (some r) = []) (hd : d.IsShallow)
    (hprompts : d.IsOrdinary) (htame : r.IsTame) : d.Returns r :=
  ⟨check_of_problems hchecked, fun _ _ _ _ _ _ hfails => run_ne_stalled hd htame hprompts hfails⟩

/-- A run ends where it comes to an end. -/
theorem run_of_ends (hd : d.Returns r) (start : Option String)
    (hreach : Reaches d r (d.startAt (d.startState start) ctx s) a)
    (hends : Ends d r a outcome b) :
    (d.run r start).Yields ctx s ⟨outcome, a.state⟩ b.ctx b.session := by
  rcases hrun : (d.run r start).outcome ctx s with ⟨⟨f | ending, ctx'⟩, s'⟩
  · -- It does not fail: where its last visit fails, no move leads out of the flow.
    obtain ⟨a₁, hreach₁, hfails⟩ := reaches_of_run_fails hd.1 (hd.2 _ _ _ _ _ _ hrun) hrun
    obtain rfl := reaches_unique hreach hreach₁ hends.stops
      fun c ⟨⟨event, hmove⟩, _⟩ => stops_of_fails hfails c event hmove
    obtain ⟨event, hmove⟩ := hends.1
    exact absurd hmove (stops_of_fails hfails b event)
  · obtain ⟨a₁, b₁, hreach₁, hstate, hends₁, rfl, rfl⟩ := reaches_of_run hrun
    obtain rfl := reaches_unique hreach hreach₁ hends.stops hends₁.stops
    obtain ⟨⟨event, hmove⟩, hout⟩ := hends
    obtain ⟨⟨event₁, hmove₁⟩, hout₁⟩ := hends₁
    obtain rfl := (hmove.unique hmove₁).2
    obtain rfl : outcome = ending.outcome := Option.some.inj (hout.symm.trans hout₁)
    rw [hstate]
    exact hrun

/-- A run fails where a visit fails. -/
theorem run_of_fails (hd : d.Returns r) (start : Option String)
    (hreach : Reaches d r (d.startAt (d.startState start) ctx s) a)
    (hfails : (visit d r a.state).Fails a.ctx a.session f ctx' s') :
    (d.run r start).Fails ctx s f ctx' s' := by
  have hstop : ∀ c, ¬ Leads d r a c := fun c ⟨⟨event, hmove⟩, _⟩ =>
    stops_of_fails hfails c event hmove
  rcases hrun : (d.run r start).outcome ctx s with ⟨⟨f₁ | ending, ctx₁⟩, s₁⟩
  · obtain ⟨a₁, hreach₁, hfails₁⟩ := reaches_of_run_fails hd.1 (hd.2 _ _ _ _ _ _ hrun) hrun
    obtain rfl := reaches_unique hreach hreach₁ hstop
      fun c ⟨⟨event, hmove⟩, _⟩ => stops_of_fails hfails₁ c event hmove
    have hboth := hfails.symm.trans hfails₁
    obtain ⟨hresult, rfl⟩ := Prod.mk.inj hboth
    obtain ⟨hfault, rfl⟩ := Prod.mk.inj hresult
    obtain rfl := Except.error.inj hfault
    exact hrun
  · obtain ⟨a₁, b₁, hreach₁, -, hends₁, -⟩ := reaches_of_run hrun
    obtain rfl := reaches_unique hreach hreach₁ hstop hends₁.stops
    obtain ⟨event, hmove⟩ := hends₁.1
    exact absurd hmove (stops_of_fails hfails b₁ event)

/-! ### The end of the loop -/

theorem goes_of_leads (h : Reaches d r a b) : Relation.ReflTransGen (Goes d r home) a b :=
  Relation.ReflTransGen.mono (fun _ _ hlead => Or.inl hlead) _ _ h

theorem startState_some (hnamed : home ≠ "") : d.startState (some home) = home :=
  if_neg fun h => hnamed (beq_iff_eq.mp h)

/-- A run that ends at the root away from home is followed by one that starts there. -/
theorem goes_anew {ending : Ending} (hends : Ends d r a ending.outcome b)
    (hstate : a.state = ending.state)
    (hroot : (ending.outcome == .root && ending.state != home) = true) :
    Goes d r home a (d.startAt home b.ctx b.session) := by
  obtain ⟨houtcome, haway⟩ := Bool.and_eq_true_iff.mp hroot
  refine .inr ⟨b, beq_iff_eq.mp houtcome ▸ hends, ?_, rfl⟩
  exact hstate ▸ bne_iff_ne.mp haway

/-- A loop that ends well comes to where it ends. -/
theorem stays_of_loop (hnamed : home ≠ "") {more : Nat}
    (h : (d.loop r home more ctx start).Yields s outcome s') :
    ∃ a b, Relation.ReflTransGen (Goes d r home) (d.startAt (d.startState start) ctx s) a ∧
      Stays d r home a outcome b ∧ b.session = s' := by
  induction more generalizing ctx start s with
  | zero => exact absurd h Desk.yields_throw
  | succ more ih =>
    obtain ⟨⟨ending, ctx₁⟩, s₁, hrun, h⟩ := Desk.yields_bind.mp h
    obtain ⟨a, b, hreach, hstate, hends, rfl, rfl⟩ := reaches_of_run (runOn_yields.mp hrun)
    dsimp only at h
    split at h
    · next hroot =>
      -- The run ended at the root away from home, so the rest of the loop starts there.
      obtain ⟨a', b', hrest, hstays⟩ := ih h
      rw [startState_some hnamed] at hrest
      have hanew := goes_anew hends hstate hroot
      exact ⟨a', b', ((goes_of_leads hreach).tail hanew).trans hrest, hstays⟩
    · next hroot =>
      obtain ⟨rfl, rfl⟩ := Desk.yields_pure.mp h
      refine ⟨a, b, goes_of_leads hreach, ⟨hends, fun houtcome => ?_⟩, rfl⟩
      rw [houtcome, beq_self_eq_true, Bool.true_and, bne_iff_ne, not_not] at hroot
      exact hstate.trans hroot

/-- A loop that fails was given too few rounds, or a visit where it comes fails. -/
theorem fails_of_loop (hnamed : home ≠ "") (hd : d.Returns r) {more : Nat} (hf : f ≠ .stalled)
    (h : (d.loop r home more ctx start).Fails s f s') :
    ∃ a ctx', Relation.ReflTransGen (Goes d r home) (d.startAt (d.startState start) ctx s) a ∧
      (visit d r a.state).Fails a.ctx a.session f ctx' s' := by
  induction more generalizing ctx start s with
  | zero => exact absurd (Desk.fails_throw.mp h).1 hf
  | succ more ih =>
    rcases Desk.fails_bind.mp h with hrun | ⟨⟨ending, ctx₁⟩, s₁, hrun, h⟩
    · obtain ⟨ctx', hrun⟩ := runOn_fails.mp hrun
      obtain ⟨a, hreach, hfails⟩ := reaches_of_run_fails hd.1 hf hrun
      exact ⟨a, ctx', goes_of_leads hreach, hfails⟩
    · obtain ⟨a, b, hreach, hstate, hends, rfl, rfl⟩ := reaches_of_run (runOn_yields.mp hrun)
      dsimp only at h
      split at h
      · next hroot =>
        obtain ⟨a', ctx', hrest, hfails⟩ := ih h
        rw [startState_some hnamed] at hrest
        have hanew := goes_anew hends hstate hroot
        exact ⟨a', ctx', ((goes_of_leads hreach).tail hanew).trans hrest, hfails⟩
      · exact absurd h Desk.fails_pure

/-- The single run ends as the loop does. -/
theorem homing_of_loop (hr : r.IgnoresLog) (hhome : Outcome.ofWord? home = none)
    (hnamed : home ≠ "") (hhoming : (d.homing home).Returns r) {more : Nat}
    (h : (d.loop r home more ctx start).Yields s outcome s') :
    ∃ state ctx' s'', ((d.homing home).runOn r ctx start).Yields s (⟨outcome, state⟩, ctx') s'' ∧
      (outcome = .root → state = home) ∧ s'.SameBut d.id s'' := by
  obtain ⟨a, b, hgoes, hstays, rfl⟩ := stays_of_loop hnamed h
  obtain ⟨n, hsteps⟩ := exists_steps hgoes
  obtain ⟨a', hsteps', hsame⟩ := steps_homing hr hhome hsteps
  obtain ⟨b', hends, hsame'⟩ := stays_homing hr hsame hstays
  refine ⟨a'.state, b'.ctx, b'.session, runOn_yields.mpr ?_, fun hroot => ?_, hsame'.session⟩
  · exact run_of_ends hhoming start hsteps'.reflTransGen hends
  · exact hsame.state.trans (hstays.2 hroot)

/-- The single run fails as the loop does. -/
theorem homing_of_loop_fails (hr : r.IgnoresLog) (hhome : Outcome.ofWord? home = none)
    (hnamed : home ≠ "") (hd : d.Returns r) (hhoming : (d.homing home).Returns r) {more : Nat}
    (hf : f ≠ .stalled) (h : (d.loop r home more ctx start).Fails s f s') :
    ∃ s'', ((d.homing home).runOn r ctx start).Fails s f s'' ∧ s'.SameBut d.id s'' := by
  obtain ⟨a, ctx', hgoes, hfails⟩ := fails_of_loop hnamed hd hf h
  obtain ⟨n, hsteps⟩ := exists_steps hgoes
  obtain ⟨a', hsteps', hsame⟩ := steps_homing hr hhome hsteps
  obtain ⟨s'', hfails', hleft⟩ := visit_same_fails hr hsame hfails
  refine ⟨s'', runOn_fails.mpr ⟨ctx', ?_⟩, hleft⟩
  exact run_of_fails hhoming start hsteps'.reflTransGen (visit_homing_fails home hfails')

/-- A loop with more rounds than there are answers comes to an end, since each round takes an
answer. -/
theorem loop_ne_stalled (hd : d.Returns r) (htame : r.IsTame) (hnamed : home ≠ "")
    (hmenu : d.isRouter home = false) {more : Nat} (hstart : d.startState start = home)
    (hmore : s.answers.length < more) (h : (d.loop r home more ctx start).Fails s f s') :
    f ≠ .stalled := by
  induction more generalizing ctx start s with
  | zero => exact absurd hmore (Nat.not_lt_zero _)
  | succ more ih =>
    rcases Desk.fails_bind.mp h with hrun | ⟨⟨ending, ctx₁⟩, s₁, hrun, h⟩
    · obtain ⟨ctx', hrun⟩ := runOn_fails.mp hrun
      exact hd.2 _ _ _ _ _ _ hrun
    · have htaken := takes_of_run htame (by rw [hstart, hmenu]) (runOn_yields.mp hrun)
      dsimp only at h
      split at h
      · exact ih (startState_some hnamed) (by omega) h
      · exact absurd h Desk.fails_pure

end
end Flow
end BuildDesk
