/-
Runs of flows that can be relied on.

A run of a flow is fair (`Step.IsFair`) when its handlers are and the flow is sound: the check
finds no problem in it, its prompts can be shown, routers do not stand in line, and of an answer
that a prompt allows comes an event with a transition.

* `LeadsOn` — what the prompt of a state allows leads on;
* `leadsOn_of_checked`, `leadsOn_menu` — the check sees to it where events are declared, and
  where none are it is seen from the options;
* `Sound` — what the runs of a flow rely on;
* `fairAt_eventAt`, `Sound.fairAt_visit`, `Sound.isFair_run` — a visit and a run are fair.
-/
import BuildDesk.Proofs.Flow.Checked
import BuildDesk.Proofs.Flow.Shallow

namespace BuildDesk.Flow

variable {κ α : Type} {E : Event → Prop} {d : Definition κ} {r : Registry κ} {name : String}
variable {state : State κ} {ctx ctx' : κ} {s s' : Session}

/-- When the answer that the state takes is one that its prompt allows, the event that comes of
it has a transition. -/
def LeadsOn (d : Definition κ) (r : Registry κ) (name : String) (state : State κ) : Prop :=
  ∀ ctx s event ctx' s', (eventAt d r name state).Yields ctx s event ctx' s' → s.Obeys s' →
    ∃ word, event = .str word ∧ state.handles word = true

/-- In a checked flow whose handlers keep to the events that they declare, it remains to be seen
whether prompts that declare none lead on. -/
theorem leadsOn_of_checked (hd : problems d (some r) = []) (htrue : r.IsTrue)
    (hstate : d.state? name = some state)
    (hloose : state.IsLoose r → LeadsOn d r name state) : LeadsOn d r name state := by
  intro ctx s event ctx' s' hevent hobeys
  rcases handled_of_fit htrue (fit_of_problems hd hstate) hevent with hhandled | hfree
  · exact hhandled
  · exact hloose hfree ctx s event ctx' s' hevent hobeys

/-- What the runs of a flow rely on, so that they are fair. -/
structure Sound (E : Event → Prop) (d : Definition κ) (r : Registry κ) : Prop where
  checked : problems d (some r) = []
  shallow : d.IsShallow
  ordinary : d.IsOrdinary
  leadsOn : ∀ {name state}, d.state? name = some state → LeadsOn d r name state
  handlers : ∀ {name h}, r.find? name = some h → ∀ value, (h.run value).IsFair E
  steps : ∀ name event target, E (.step d.id name event target)

theorem Sound.isTame (h : Sound E d r) : r.IsTame :=
  fun hfind value => (h.handlers hfind value).tame

/-! ### Prompts -/

theorem isFair_project {p : Projection κ α} (h : ∀ lang ctx, IsOrdinary (p lang ctx)) :
    (Step.project p).IsFair E :=
  Step.isFair_bind Step.isFair_context fun _ =>
    Step.isFair_bind (Step.isFair_ofDesk Desk.isFair_lang) fun _ =>
      Step.isFair_ofDesk (Desk.isFair_ofExcept (h _ _))

theorem isFair_showPrompt [Event.Common E] {prompt : Prompt κ} (h : prompt.IsOrdinary) :
    (showPrompt d name prompt).IsFair E := by
  cases prompt with
  | select message options =>
    refine Step.isFair_bind (isFair_project fun lang ctx f hf => h.2 lang ctx f (.inl hf)) ?_
    refine fun _ => Step.isFair_bind (isFair_project fun lang ctx f hf =>
      h.2 lang ctx f (.inr hf)) fun _ => ?_
    exact Step.isFair_ofDesk (Desk.isFair_ask rfl)
  | confirm message initial =>
    refine Step.isFair_bind (isFair_project fun lang ctx f hf => h.2 lang ctx f (.inl hf)) ?_
    refine fun _ => Step.isFair_bind (isFair_project fun lang ctx f hf =>
      h.2 lang ctx f (.inr hf)) fun _ => ?_
    exact Step.isFair_ofDesk (Desk.isFair_ask rfl)
  | text message placeholder initial =>
    refine Step.isFair_bind (isFair_project fun lang ctx f hf => h.2 lang ctx f (.inl hf)) ?_
    refine fun _ => Step.isFair_bind (isFair_project fun lang ctx f hf =>
      h.2 lang ctx f (.inr (.inl hf))) fun _ => ?_
    refine Step.isFair_bind (isFair_project fun lang ctx f hf =>
      h.2 lang ctx f (.inr (.inr hf))) fun _ => ?_
    exact Step.isFair_ofDesk (Desk.isFair_ask rfl)
  | odd kind message => exact absurd h.1 Bool.false_ne_true

/-- The event of a state is fair when the handlers that the state calls are fair in the context
of the visit. -/
theorem fairAt_eventAt [Event.Common E] (hfit : Fit r state)
    (hprompts : ∀ prompt, state.prompt = some prompt → prompt.IsOrdinary)
    (hcalled : ∀ {handler h}, state.onEnter = some handler ∨ state.onSelect = some handler →
      r.find? handler = some h → ∀ value s, Step.FairAt E (h.run value) ctx s) :
    Step.FairAt E (eventAt d r name state) ctx s := by
  cases hfit with
  | router hprompt henter hfind hemits hcovers =>
    rw [eventAt_router henter hfind]
    exact hcalled (.inl henter) hfind none s
  | answered henter hprompt hesc hselect hfind hcovers =>
    rw [eventAt_prompt henter hprompt]
    refine Step.fairAt_bind (isFair_showPrompt (hprompts _ hprompt) ctx s) ?_
    intro v ctx₁ s₁ hshow
    obtain ⟨rfl, -⟩ := showPrompt_yields hshow
    simp only [hselect, callHandler, hfind]
    split
    · exact Step.isFair_pure _ _ _
    · exact hcalled (.inr hselect) hfind (some v) s₁
  | @unanswered prompt henter hprompt hesc hselect hkind =>
    rw [eventAt_prompt henter hprompt]
    have hordinary := hprompts _ hprompt
    refine Step.isFair_bind (isFair_showPrompt hordinary) (fun v => ?_) ctx s
    obtain ⟨word, hword⟩ : ∃ word, defaultEvent d name prompt v = pure (.str word) :=
      defaultEvent_yields_or hordinary.1 hkind v
    simp only [hselect, hword]
    split
    · exact Step.isFair_pure _
    · exact Step.isFair_pure _

theorem Sound.isFair_eventAt [Event.Common E] (h : Sound E d r)
    (hstate : d.state? name = some state) : (eventAt d r name state).IsFair E := fun _ _ =>
  fairAt_eventAt (fit_of_problems h.checked hstate) (h.ordinary _ (mem_states_of_state? hstate))
    fun _ hfind value => h.handlers hfind value _

/-- Who keeps to what is offered is asked and answers as the prompt allows. -/
theorem allows_of_ask {E' : Event → Prop} {prompt : Event} {v : Json} {s₁ : Session}
    (hprompt : prompt.isPrompt = true) (h : (Desk.ask prompt).Yields s v s₁)
    (hsince : s₁.Since E' s') (hobeys : s.Obeys s') : prompt.Allows (.value v) := by
  have hasked := (Desk.isFair_ask (E := Event.IsAny) hprompt s 0).since_of_yields h
  obtain ⟨rest, hanswers, rfl⟩ := Desk.yields_ask.mp h
  have hfirst := (hasked.obeys_split hsince hobeys).1
  have hprompts : s.prompts { s with answers := rest, log := prompt :: s.log } = [prompt] :=
    Session.prompts_of_event rfl hprompt
  refine hfirst (prompt, .value v) ?_
  rw [hprompts, hanswers]
  exact List.mem_cons_self

/-- A menu is shown with its options, and answered. -/
theorem showPrompt_select {message : Projection κ Json} {options : Projection κ (List Choice)}
    {v : Json} (h : (showPrompt d name (.select message options)).Yields ctx s v ctx' s') :
    ∃ text shown, options s.lang ctx = .ok shown ∧ (Desk.ask (.select text shown)).Yields s v s' ∧
      ctx' = ctx := by
  simp only [showPrompt, Step.yields_bind, project_yields, Step.yields_ofDesk] at h
  obtain ⟨text, _, _, ⟨-, rfl, rfl⟩, shown, _, _, ⟨hshown, rfl, rfl⟩, hask, rfl⟩ := h
  exact ⟨text, shown, hshown, hask, rfl⟩

/-! ### Handlers -/

theorem isFair_ofChange {emits : Option (List String)} {change : Json → κ → String × κ}
    (value : Option Json) : ((Handler.ofChange emits change).run value).IsFair E :=
  Step.isFair_bind Step.isFair_context fun _ =>
    Step.isFair_bind (Step.isFair_change _) fun _ => Step.isFair_pure _

theorem isFair_settling {atOnce : Json → Option (Desk String)} {h : Handler κ}
    (hatOnce : ∀ v part, atOnce v = some part → part.IsFair E)
    (hother : ∀ value, (h.otherwise value).IsFair E) (value : Option Json) :
    ((h.settling atOnce).run value).IsFair E := by
  unfold Handler.run Handler.settling
  dsimp only
  split
  · rename_i part hpart
    exact Step.isFair_ofDesk (Desk.isFair_map _ (hatOnce _ _ hpart))
  · exact hother value

theorem isFair_settled {events : List (String × String)} {v : Json} {part : Desk String}
    (h : settled events v = some part) : part.IsFair E := by
  obtain ⟨event, -, rfl⟩ := Option.map_eq_some_iff.mp h
  exact Desk.isFair_pure event

theorem isFair_confirming (value : Option Json) :
    ((Handler.confirming : Handler κ).run value).IsFair E :=
  Step.isFair_ofDesk (Desk.isFair_map _ (Desk.isFair_pure _))

/-- The handlers of a registry are fair when each of its entries is. -/
theorem isFair_of_forall (h : ∀ handler found, (handler, found) ∈ r →
    ∀ value, (Handler.run found value).IsFair E) {handler : String} {found : Handler κ}
    (hfind : r.find? handler = some found) (value : Option Json) :
    (found.run value).IsFair E := h handler found (mem_of_lookup hfind) value

/-! ### Menus that declare no events -/

/-- What choosing an entry of a menu with a way out is called. -/
def chosenEvent (value : String) : String := if value = done then done else selected value

/-- Who keeps to what is offered picks an entry of the menu, or none. -/
theorem entry_of_menu {message : Projection κ Json} {entries : List (String × Dialog)} {v : Json}
    {s₁ : Session} (h : (showPrompt d name (.select message (menu entries))).Yields ctx s v ctx' s₁)
    (hsince : s₁.Since Event.IsAny s') (hobeys : s.Obeys s') (hv : ¬ v.isNull = true) :
    ∃ entry ∈ entries, Json.str entry.1 = v := by
  obtain ⟨text, shown, hshown, hask, -⟩ := showPrompt_select h
  obtain ⟨option, hoption, rfl⟩ := (allows_of_ask rfl hask hsince hobeys).resolve_left hv
  obtain rfl := Except.ok.inj hshown
  obtain ⟨entry, hentry, rfl⟩ := List.mem_map.mp hoption
  exact ⟨entry, hentry, rfl⟩

/-- A menu whose choices stand for themselves is left by one of its entries, or by `esc`. -/
theorem leadsOn_menu {message : Projection κ Json} {entries : List (String × Dialog)}
    {handler : String} {change : Json → κ → String × κ} (henter : state.onEnter = none)
    (hprompt : state.prompt = some (.select message (menu entries)))
    (hselect : state.onSelect = some handler)
    (hfind : r.find? handler = some (.settling leaving (.ofChange none change)))
    (hchange : ∀ v ctx, (change v ctx).1 = selected v.text)
    (hesc : state.handles "esc" = true)
    (hcovers : ∀ entry ∈ entries, state.handles (chosenEvent entry.1) = true) :
    LeadsOn d r name state := by
  intro ctx s event ctx' s' hevent hobeys
  rw [eventAt_prompt henter hprompt] at hevent
  obtain ⟨v, ctx₁, s₁, hshow, hrest⟩ := Step.yields_bind.mp hevent
  split at hrest
  · obtain ⟨rfl, -, -⟩ := Step.yields_pure.mp hrest
    exact ⟨_, rfl, hesc⟩
  · rename_i hnull
    simp only [hselect, callHandler, hfind] at hrest
    have hsince : s₁.Since Event.IsAny s' := by
      refine (isFair_settling ?_ ?_ (some v) ctx₁ s₁ 0).since_of_yields hrest
      · exact fun _ _ hpart => isFair_settled hpart
      · exact fun value => isFair_ofChange value
    -- the answer is the value of an entry, so its text is the name of that entry
    obtain ⟨entry, hentry, rfl⟩ := entry_of_menu hshow hsince hobeys hnull
    have hcovered := hcovers entry hentry
    rcases yields_settling rfl hrest with ⟨part, said, hpart, hsaid, rfl, -⟩ | ⟨hopen, hrun⟩
    · obtain ⟨hleft, hgives⟩ := leaving_gives hpart
      have hdone : entry.1 = done := hleft
      obtain ⟨rfl, -⟩ := hgives _ _ _ hsaid
      rw [chosenEvent, if_pos hdone] at hcovered
      exact ⟨_, rfl, hcovered⟩
    · obtain ⟨rfl, -, -⟩ := yields_ofChange.mp hrun
      have hother : entry.1 ≠ done := by
        rintro hdone
        have hnone : leaving (.str entry.1) = none := hopen
        rw [hdone] at hnone
        cases hnone
      rw [chosenEvent, if_neg hother] at hcovered
      exact ⟨_, congrArg Json.str (hchange _ _), hcovered⟩

/-! ### Visits and runs -/

/-- An event that leads nowhere leaves everything as it is. -/
theorem follow_fails_keeps {event : Json} {f : Fault}
    (h : (follow d name state event).Fails ctx s f ctx' s') : s' = s := by
  unfold follow at h
  split at h
  · exact (Step.fails_throw.mp h).2.2
  · split at h
    · exact (Step.fails_throw.mp h).2.2
    · rcases Step.fails_bind.mp h with hemit | ⟨_, _, _, -, hpure⟩
      · exact absurd (Step.fails_ofDesk.mp hemit).1 Desk.fails_emit
      · exact absurd hpure Step.fails_pure

/-- A visit is fair: when its event leads nowhere, the answer was not one of those offered. -/
theorem Sound.fairAt_visit [Event.Common E] (h : Sound E d r)
    (hstate : d.state? name = some state) (ctx : κ) (s : Session) :
    Step.FairAt E (visit d r name) ctx s := by
  unfold visit
  simp only [hstate]
  intro n
  have hevent := h.isFair_eventAt hstate ctx s
  refine Step.fairFor_of_cases ?_ ?_
  · intro target ctx' s' hyields
    obtain ⟨event, ctx₁, s₁, hev, hfollow⟩ := Step.yields_bind.mp hyields
    obtain ⟨word, rfl, -, -, rfl⟩ := follow_yields.mp hfollow
    exact ((hevent 0).since_of_yields hev).trans (Session.since_of_event (h.steps _ _ _) rfl)
  · intro f ctx' s' hfails
    rcases Step.fails_bind.mp hfails with hev | ⟨event, ctx₁, s₁, hev, hfollow⟩
    · exact ((hevent n).fair_of_fails hev).error
    · obtain ⟨rfl, hnone⟩ := follow_fails hfollow
      obtain rfl := follow_fails_keeps hfollow
      refine ⟨(hevent 0).since_of_yields hev, nofun, fun _ _ _ hobeys => ?_⟩
      obtain ⟨word, hword, hhandles⟩ := h.leadsOn hstate _ _ _ _ _ hev hobeys
      rw [State.handles, hnone word hword] at hhandles
      cases hhandles

/-- A run is fair when it has more visits than moves. -/
theorem Sound.fairAt_go [Event.Common E] (h : Sound E d r) {visits most : Nat}
    (hknown : (d.state? name).isSome = true) (hwithin : Within d most ⟨name, ctx, s⟩)
    (hvisits : most < visits) : Step.FairAt E (d.go r visits name) ctx s := by
  -- No more moves follow than there are visits left, so the visits never run out.
  induction visits generalizing name ctx s most with
  | zero => exact absurd hvisits (Nat.not_lt_zero _)
  | succ visits ih =>
    obtain ⟨state, hstate⟩ := Option.isSome_iff_exists.mp hknown
    refine Step.fairAt_bind (h.fairAt_visit hstate ctx s) fun target ctx₁ s₁ hvisit => ?_
    obtain ⟨event, hmove⟩ := visit_yields.mp hvisit
    obtain ⟨fewer, hfewer, hwithin⟩ := hwithin.next h.shallow h.isTame hmove
    split
    · exact Step.isFair_pure _ _ _
    · rename_i hinside
      exact ih (state?_of_leads h.checked ⟨⟨event, hmove⟩, hinside⟩) hwithin (by omega)

/-- Of a sound flow every run comes to what it comes to from its start. -/
theorem Sound.outcome_run (h : Sound E d r) (start : Option String) (ctx : κ) (s : Session) :
    (d.run r start).outcome ctx s = (d.go r (visitsFor s) (d.startState start)).outcome ctx
      { s with log := .start d.id (d.startState start) :: s.log } := by
  have hcheck : check d r = .ok () := by rw [check, h.checked]
  unfold Definition.run
  rw [hcheck]
  rfl

/-- After its start a run has events of the kind only. -/
theorem Sound.since_run [Event.Common E] (h : Sound E d r) {start : Option String}
    (hknown : (d.state? (d.startState start)).isSome = true) (ctx : κ) (s : Session) :
    ({ s with log := .start d.id (d.startState start) :: s.log } : Session).Since E
      ((d.run r start).outcome ctx s).2 := by
  rw [h.outcome_run]
  exact (h.fairAt_go hknown (within_start h.shallow _) (Nat.lt_succ_self _) 0).since

/-- A checked run is fair. -/
theorem Sound.isFair_run [Event.Common E] (h : Sound E d r) {start : Option String}
    (hknown : (d.state? (d.startState start)).isSome = true)
    (hstart : E (.start d.id (d.startState start))) : (d.run r start).IsFair E := by
  have hcheck : check d r = .ok () := by rw [check, h.checked]
  refine Step.isFair_bind (Step.isFair_ofDesk (Desk.isFair_ofExcept ?_)) fun _ ctx s => ?_
  · rw [hcheck]
    exact nofun
  · refine Step.fairAt_bind (fun n => .ok (.refl s) s) fun t ctx₁ s₁ hget => ?_
    obtain ⟨rfl, rfl, rfl⟩ := Step.yields_session.mp hget
    have hemit : (Step.ofDesk (Desk.emit (.start d.id (d.startState start))) :
        Step κ Unit).IsFair E := Step.isFair_ofDesk (Desk.isFair_emit hstart rfl)
    refine Step.fairAt_bind (hemit _ _) fun _ ctx₂ s₂ hlogged => ?_
    obtain ⟨hlog, rfl⟩ := Step.yields_ofDesk.mp hlogged
    obtain rfl := Desk.yields_emit.mp hlog
    exact h.fairAt_go hknown (within_start h.shallow _) (Nat.lt_succ_self _)

/-- What a run comes to as a part of a command. -/
theorem outcome_runOn (start : Option String) (ctx : κ) (s : Session) :
    (d.runOn r ctx start).outcome s =
      (((d.run r start).outcome ctx s).1.1.map fun ending =>
        (ending, ((d.run r start).outcome ctx s).1.2), ((d.run r start).outcome ctx s).2) := rfl

/-- A run is fair as a part of a command. -/
theorem isFair_runOn {start : Option String} (h : (d.run r start).IsFair E) (ctx : κ) :
    (d.runOn r ctx start).IsFair E := by
  intro s n
  have hrun := h ctx s n
  unfold Desk.FairFor
  unfold Step.FairFor at hrun
  rw [outcome_runOn]
  generalize (d.run r start).outcome ctx s = result at hrun
  obtain ⟨⟨f | ending, ctx'⟩, s'⟩ := result
  · exact hrun.error
  · exact .ok hrun.since _

end BuildDesk.Flow
