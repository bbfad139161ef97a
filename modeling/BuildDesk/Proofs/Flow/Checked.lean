/-
Checked flows run without faults of their own.

A flow in which the check finds no problem is never at a loss: wherever a run of it
comes, the state is there, its handler is there, and the events that are promised
have transitions.  A run may still fail, but then a handler, a text of a prompt or
the one who is asked is at fault, or a handler that promised nothing gave an event
that nobody expected (`fault_of_checked_run`).

The check and the run are written apart.  `Fit` is what they have in common: the
check grants it of every state (`fit_of_problems`), and a visit of a fit state can
only fail from outside (`eventAt_fails`) or by an event that nobody promised
(`handled_of_fit`).
-/
import BuildDesk.Proofs.Flow.Promise
import BuildDesk.Proofs.Flow.Reach
import Mathlib.Tactic.Common

namespace BuildDesk.Flow

variable {κ : Type} {d : Definition κ} {r : Registry κ} {state : State κ} {name : String}
variable {ctx ctx' : κ} {s s' : Session}

/-- All prompts are of a kind that can be shown. -/
def Definition.IsShown (d : Definition κ) : Prop :=
  ∀ entry ∈ d.states, ∀ prompt, entry.2.prompt = some prompt → prompt.isKnown = true

theorem Browse.isShown_table : Browse.table.IsShown := by
  intro entry hentry prompt hprompt
  simp only [Browse.table, List.mem_cons, List.not_mem_nil, or_false] at hentry
  rcases hentry with rfl | rfl | rfl
  · obtain rfl := Option.some.inj hprompt
    rfl
  · obtain rfl := Option.some.inj hprompt
    rfl
  · cases hprompt

/-! ### What the check grants -/

/-- A state in which nothing can go wrong but what handlers and prompts do. -/
inductive Fit (r : Registry κ) (state : State κ) : Prop
  | router {name h events} (hprompt : state.prompt = none) (henter : state.onEnter = some name)
      (hfind : r.find? name = some h) (hemits : h.emits = some events)
      (hcovers : ∀ e ∈ events, state.handles e = true)
  | answered {prompt name h} (henter : state.onEnter = none)
      (hprompt : state.prompt = some prompt) (hesc : state.handles "esc" = true)
      (hselect : state.onSelect = some name) (hfind : r.find? name = some h)
      (hcovers : ∀ events, h.emits = some events → ∀ e ∈ events, state.handles e = true)
  | unanswered {prompt} (henter : state.onEnter = none) (hprompt : state.prompt = some prompt)
      (hesc : state.handles "esc" = true) (hselect : state.onSelect = none)
      (hkind : ∃ name, defaultProblems name state prompt = [])

theorem stateProblems_eq_nil (hd : problems d (some r) = []) (h : d.state? name = some state) :
    stateProblems d (some r) name state = [] := by
  have hall := (List.append_eq_nil_iff.mp hd).2
  exact List.flatMap_eq_nil_iff.mp hall _ (mem_states_of_state? h)

theorem isSome_initial (hd : problems d (some r) = []) : (d.state? d.initial).isSome = true := by
  have hinit := (List.append_eq_nil_iff.mp hd).1
  by_contra hnone
  rw [if_neg hnone] at hinit
  exact absurd hinit (List.cons_ne_nil _ _)

/-- A transition leads to a state of the flow or out of it. -/
theorem target_known {event target : String} (hd : problems d (some r) = [])
    (h : d.state? name = some state) (ht : state.target? event = some target) :
    isReserved target = true ∨ (d.state? target).isSome = true := by
  have hstate := stateProblems_eq_nil hd h
  have htargets := (List.append_eq_nil_iff.mp (List.append_eq_nil_iff.mp hstate).1).2
  have hok := List.filterMap_eq_nil_iff.mp htargets _ (mem_of_lookup ht)
  by_contra hnone
  simp [hnone] at hok

theorem find_of_handlerProblems {handler : String} {isRouter : Bool}
    (h : handlerProblems r name state handler isRouter = []) :
    ∃ found, r.find? handler = some found ∧ (isRouter = true → found.emits ≠ none) ∧
      ∀ events, found.emits = some events → ∀ e ∈ events, state.handles e = true := by
  unfold handlerProblems at h
  rcases hfind : r.find? handler with _ | found
  · simp [hfind] at h
  · rcases hemits : found.emits with _ | events
    · simp only [hfind, hemits] at h
      refine ⟨found, rfl, ?_, by simp [hemits]⟩
      rintro rfl
      simp at h
    · simp only [hfind, hemits, List.map_eq_nil_iff] at h
      refine ⟨found, rfl, by simp [hemits], ?_⟩
      rintro events' hevents e he
      obtain rfl : events = events' := Option.some.inj (hemits.symm.trans hevents)
      by_contra hnot
      -- the check names the events without a transition, and here it names none
      have hmem : e ∈ sorted (events.eraseDups.filter fun e => !state.handles e) := by
        simp [sorted, he, Bool.eq_false_iff.mpr hnot]
      rw [h] at hmem
      exact absurd hmem List.not_mem_nil

theorem fit_of_problems (hd : problems d (some r) = []) (h : d.state? name = some state) :
    Fit r state := by
  have hkind := (List.append_eq_nil_iff.mp (stateProblems_eq_nil hd h)).2
  unfold kindProblems at hkind
  -- neither and both are problems by themselves, so a router or a prompt is left
  rcases hprompt : state.prompt with _ | prompt <;> rcases henter : state.onEnter with _ | handler
  · simp [hprompt, henter] at hkind
  · simp only [hprompt, henter] at hkind
    obtain ⟨found, hfind, hemits, hcovers⟩ :=
      find_of_handlerProblems (List.append_eq_nil_iff.mp hkind).2
    obtain ⟨events, hevents⟩ := Option.ne_none_iff_exists'.mp (hemits rfl)
    exact .router hprompt henter hfind hevents (hcovers events hevents)
  · simp only [hprompt, henter] at hkind
    obtain ⟨hesc, hrest⟩ := List.append_eq_nil_iff.mp hkind
    have hesc : state.handles "esc" = true := by
      by_contra hnone
      simp [hnone] at hesc
    rcases hselect : state.onSelect with _ | handler
    · simp only [hselect] at hrest
      exact .unanswered henter hprompt hesc hselect ⟨name, hrest⟩
    · simp only [hselect] at hrest
      obtain ⟨found, hfind, -, hcovers⟩ := find_of_handlerProblems hrest
      exact .answered henter hprompt hesc hselect hfind hcovers
  · simp [hprompt, henter] at hkind

/-! ### What a visit of a fit state does -/

/-- A fault that the visit of the state at `a` has no part in: the handler that it calls
raises it, a text of its prompt cannot be computed, or the one who is asked gives no
answer.  The visit leaves context and session as the fault does. -/
inductive Outside (d : Definition κ) (r : Registry κ) (a : Position κ) (state : State κ)
    (f : Fault) (left : κ) (s' : Session) : Prop
  | entered {handler h} (henter : state.onEnter = some handler)
      (hfind : r.find? handler = some h) (hfails : (h.run none).Fails a.ctx a.session f left s')
  | prompt {prompt} (hprompt : state.prompt = some prompt)
      (hbroken : prompt.Broken a.session.lang a.ctx f) (hctx : left = a.ctx)
      (hsession : s' = a.session)
  | asked {shown} (hasked : (Desk.ask shown).Fails a.session f s') (hctx : left = a.ctx)
  | answered {prompt handler h v s} (hprompt : state.prompt = some prompt)
      (hshow : (showPrompt d a.state prompt).Yields a.ctx a.session v a.ctx s)
      (hselect : state.onSelect = some handler) (hfind : r.find? handler = some h)
      (hfails : (h.run (some v)).Fails a.ctx s f left s')

/-- The state has a prompt, and no events are declared for its answers. -/
def State.IsLoose (state : State κ) (r : Registry κ) : Prop :=
  state.onEnter = none ∧ state.prompt.isSome = true ∧ (state.onSelect = none ∨
    ∃ name h, state.onSelect = some name ∧ r.find? name = some h ∧ h.emits = none)

/-- An answer that no handler takes has an event, unless the check objects. -/
theorem defaultEvent_yields_or {prompt : Prompt κ} (hknown : prompt.isKnown = true)
    (hkind : ∃ name, defaultProblems name state prompt = []) (v : Json) :
    ∃ word, defaultEvent d name prompt v = pure (.str word) := by
  obtain ⟨_, hkind⟩ := hkind
  cases prompt with
  | select message options => exact ⟨_, rfl⟩
  | confirm message initial => exact ⟨_, rfl⟩
  | text message placeholder initial => exact absurd hkind (List.cons_ne_nil _ _)
  | odd kind message => simp [Prompt.isKnown] at hknown

theorem outside_of_showPrompt {prompt : Prompt κ} {f : Fault}
    (hprompt : state.prompt = some prompt) (hknown : prompt.isKnown = true)
    (h : (showPrompt d name prompt).Fails ctx s f ctx' s') :
    Outside d r ⟨name, ctx, s⟩ state f ctx' s' := by
  obtain ⟨hctx, ⟨hbroken, hsession⟩ | ⟨shown, hasked⟩⟩ := showPrompt_fails hknown h
  · exact .prompt hprompt hbroken hctx hsession
  · exact .asked hasked hctx

/-- No event of a fit state comes to nothing but by a fault from outside. -/
theorem eventAt_fails (hfit : Fit r state)
    (hknown : ∀ prompt, state.prompt = some prompt → prompt.isKnown = true) {f : Fault}
    (h : (eventAt d r name state).Fails ctx s f ctx' s') :
    Outside d r ⟨name, ctx, s⟩ state f ctx' s' := by
  cases hfit with
  | router hprompt henter hfind hemits hcovers =>
    rw [eventAt_router henter hfind] at h
    exact .entered henter hfind h
  | answered henter hprompt hesc hselect hfind hcovers =>
    rw [eventAt_prompt henter hprompt] at h
    simp only [promptEvent, Step.fails_bind, hselect] at h
    rcases h with h | ⟨v, ctx₁, s₁, hshow, h⟩
    · exact outside_of_showPrompt hprompt (hknown _ hprompt) h
    · obtain ⟨rfl, -⟩ := showPrompt_yields hshow
      split at h
      · exact absurd h Step.fails_pure
      · simp only [callHandler, hfind] at h
        exact .answered hprompt hshow hselect hfind h
  | unanswered henter hprompt hesc hselect hkind =>
    rw [eventAt_prompt henter hprompt] at h
    simp only [promptEvent, Step.fails_bind, hselect] at h
    rcases h with h | ⟨v, ctx₁, s₁, -, h⟩
    · exact outside_of_showPrompt hprompt (hknown _ hprompt) h
    · split at h
      · exact absurd h Step.fails_pure
      · obtain ⟨word, hword⟩ := defaultEvent_yields_or (d := d) (hknown _ hprompt) hkind v
        rw [hword] at h
        exact absurd h Step.fails_pure

/-- An event of a fit state has a transition, unless nobody promised it. -/
theorem handled_of_fit (htrue : r.IsTrue) (hfit : Fit r state) {event : Json}
    (h : (eventAt d r name state).Yields ctx s event ctx' s') :
    (∃ word, event = .str word ∧ state.handles word = true) ∨ state.IsLoose r := by
  cases hfit with
  | router hprompt henter hfind hemits hcovers =>
    rw [eventAt_router henter hfind] at h
    obtain ⟨word, hmem, rfl⟩ := htrue _ _ hfind _ hemits _ _ _ _ _ _ h
    exact .inl ⟨word, rfl, hcovers word hmem⟩
  | @answered prompt handler found henter hprompt hesc hselect hfind hcovers =>
    rcases hemits : found.emits with _ | events
    · exact .inr ⟨henter, by simp [hprompt], .inr ⟨handler, found, hselect, hfind, hemits⟩⟩
    · rw [eventAt_prompt henter hprompt] at h
      simp only [promptEvent, Step.yields_bind, hselect] at h
      obtain ⟨v, ctx₁, s₁, -, h⟩ := h
      split at h
      · exact .inl ⟨"esc", (Step.yields_pure.mp h).1, hesc⟩
      · simp only [callHandler, hfind] at h
        obtain ⟨word, hmem, rfl⟩ := htrue _ _ hfind _ hemits _ _ _ _ _ _ h
        exact .inl ⟨word, rfl, hcovers events hemits word hmem⟩
  | unanswered henter hprompt hesc hselect hkind =>
    exact .inr ⟨henter, by simp [hprompt], .inl hselect⟩

/-! ### Whole runs -/

/-- A move that does not end the run leads to a state of the flow. -/
theorem state?_of_leads (hd : problems d (some r) = []) {a b : Position κ} (h : Leads d r a b) :
    (d.state? b.state).isSome = true := by
  obtain ⟨⟨event, state, s, hstate, ht, -⟩, hout⟩ := h
  rcases target_known hd hstate ht with hres | hsome
  · simp [isReserved, hout] at hres
  · exact hsome

/-- A run of a checked flow comes to states of the flow only. -/
theorem state?_of_reaches (hd : problems d (some r) = []) {a b : Position κ}
    (ha : (d.state? a.state).isSome = true) (h : Reaches d r a b) :
    (d.state? b.state).isSome = true :=
  h.invariant (P := fun p => (d.state? p.state).isSome = true) ha
    fun _ _ _ hleads => state?_of_leads hd hleads

/-- Where a visit of a checked flow fails, the fault is from outside, or a prompt whose
events nobody promised gave one that has no transition. -/
theorem visit_fails_of_checked (hd : problems d (some r) = []) (hshown : d.IsShown)
    (htrue : r.IsTrue) (hstate : d.state? name = some state) {f : Fault}
    (h : (visit d r name).Fails ctx s f ctx' s') :
    Outside d r ⟨name, ctx, s⟩ state f ctx' s' ∨ state.IsLoose r ∧
      ∃ event, f = .complaint (.flow (.unhandled d.id (some name) event)) := by
  have hfit := fit_of_problems hd hstate
  simp only [visit, hstate, Step.fails_bind] at h
  rcases h with h | ⟨event, ctx₁, s₁, hev, h⟩
  · exact .inl (eventAt_fails hfit (hshown _ (mem_states_of_state? hstate)) h)
  · obtain ⟨hf, hnone⟩ := follow_fails h
    rcases handled_of_fit htrue hfit hev with ⟨word, hword, hhandles⟩ | hloose
    · simp [State.handles, hnone word hword] at hhandles
    · exact .inr ⟨hloose, event, hf⟩

theorem startState_known (hd : problems d (some r) = []) {start : Option String}
    (hstart : ∀ name, start = some name → (d.state? name).isSome = true) :
    (d.state? (d.startState start)).isSome = true := by
  unfold Definition.startState
  split
  · split
    · exact isSome_initial hd
    · exact hstart _ rfl
  · exact isSome_initial hd

/-- **A checked flow is never at a loss.**  However many visits a run of it is given, it
ends by a transition of the state in which it ends; and when it fails, the visits were
too few, or a state that it reaches met with a fault from outside, or a prompt whose events
nobody promised gave one that has no transition. -/
theorem fault_of_checked_run (hd : problems d (some r) = []) (hshown : d.IsShown)
    (htrue : r.IsTrue) {start : Option String}
    (hstart : ∀ name, start = some name → (d.state? name).isSome = true)
    (visits : Nat) (ctx : κ) (s : Session) :
    (∀ ending ctx' s', (d.runFor r visits start).Yields ctx s ending ctx' s' →
      ∃ state event, d.state? ending.state = some state ∧
        state.target? event = some ending.outcome.word) ∧
    ∀ f ctx' s', (d.runFor r visits start).Fails ctx s f ctx' s' →
      f = .stalled ∨ ∃ s₁ a state, Reaches d r ⟨d.startState start, ctx, s₁⟩ a ∧
        d.state? a.state = some state ∧ (Outside d r a state f ctx' s' ∨ state.IsLoose r ∧
          ∃ event, f = .complaint (.flow (.unhandled d.id (some a.state) event))) := by
  have hknown := startState_known hd hstart
  constructor
  · intro ending ctx' s' h
    simp only [Definition.runFor, Step.yields_bind, Step.yields_ofDesk] at h
    obtain ⟨-, ctx₁, s₁, -, h⟩ := h
    obtain ⟨a, b, -, ha, ⟨⟨event, state, s₂, hstate, ht, -⟩, hout⟩, -⟩ := go_yields h
    refine ⟨state, event, ha ▸ hstate, ?_⟩
    rw [ht, Outcome.word_of_ofWord? hout]
  · intro f ctx' s' h
    simp only [Definition.runFor, Step.fails_bind, Step.fails_ofDesk, Desk.fails_emit,
      false_and, false_or] at h
    obtain ⟨-, _, s₁, ⟨-, rfl⟩, h⟩ := h
    refine (go_fails h).imp_right ?_
    rintro ⟨a, hreach, hfail⟩
    obtain ⟨state, hstate⟩ := Option.isSome_iff_exists.mp (state?_of_reaches hd hknown hreach)
    exact ⟨_, a, state, hreach, hstate, visit_fails_of_checked hd hshown htrue hstate hfail⟩

/-- A run that browses jobs and is cancelled at once. -/
theorem ending_of_cancelled_browsing :
    ∃ ending ctx s, (Browse.table.runFor
        (Browse.handlers fun _ _ => pure (.str ActionResult.ok.word)) 1 none).Yields
          { settings := { url := "", user := "", token := "" }, jobs := [] }
          { answers := [.value .null] } ending ctx s ∧
      ∃ state event, Browse.table.state? ending.state = some state ∧
        state.target? event = some ending.outcome.word := by
  have hrun : ∃ ending ctx s, (Browse.table.runFor
        (Browse.handlers fun _ _ => pure (.str ActionResult.ok.word)) 1 none).Yields
          { settings := { url := "", user := "", token := "" }, jobs := [] }
          { answers := [.value .null] } ending ctx s := ⟨⟨.root, "select_job"⟩, _, _, by rfl⟩
  obtain ⟨ending, ctx, s, hrun⟩ := hrun
  have htrue : (Browse.handlers fun _ _ => pure (.str ActionResult.ok.word)).IsTrue :=
    Browse.isTrue_handlers fun _ _ s v s' hv => ⟨_, by decide, (Desk.yields_pure.mp hv).1⟩
  exact ⟨ending, ctx, s, hrun, (fault_of_checked_run (by decide +kernel) Browse.isShown_table htrue
    (by rintro _ ⟨⟩) 1 _ _).1 ending ctx s hrun⟩

end BuildDesk.Flow
