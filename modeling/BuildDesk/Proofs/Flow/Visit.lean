/-
What a visit of a state does.

A visit takes an answer when the state has a prompt, calls a handler, and follows the
event that comes of it.  For each of these parts this file says what is known when it
yields and what is known when it fails:

* `showPrompt_yields`, `showPrompt_fails` — a prompt takes one answer and changes nothing
  else;
* `eventAt_answered`, `eventAt_unanswered` — the event of a prompt is `esc`, or that of its
  handler, or what the answer stands for;
* `follow_yields`, `follow_fails` — an event that has a transition, and one that has none.
-/
import BuildDesk.Flow.Run
import BuildDesk.Proofs.Outcome

namespace BuildDesk.Flow

variable {κ α : Type} {d : Definition κ} {r : Registry κ} {state : State κ} {name : String}
variable {ctx ctx' : κ} {s s' : Session}

/-- What is found under a name is an entry. -/
theorem mem_of_lookup {entries : List (String × α)} {a : α} (h : entries.lookup name = some a) :
    (name, a) ∈ entries := by
  obtain ⟨before, after, rfl, -⟩ := List.lookup_eq_some_iff.mp h
  exact List.mem_append_right _ List.mem_cons_self

theorem mem_states_of_state? (h : d.state? name = some state) : (name, state) ∈ d.states :=
  mem_of_lookup h

theorem project_yields {p : Projection κ α} {a : α} :
    (Step.project p).Yields ctx s a ctx' s' ↔ p s.lang ctx = .ok a ∧ ctx' = ctx ∧ s' = s := by
  simp only [Step.project, Step.yields_bind, Step.yields_context, Step.yields_ofDesk,
    Desk.yields_lang, Desk.yields_ofExcept]
  constructor
  · rintro ⟨_, _, _, ⟨rfl, rfl, rfl⟩, _, _, _, ⟨⟨rfl, rfl⟩, rfl⟩, ⟨hp, rfl⟩, rfl⟩
    exact ⟨hp, rfl, rfl⟩
  · rintro ⟨hp, rfl, rfl⟩
    exact ⟨_, _, _, ⟨rfl, rfl, rfl⟩, _, _, _, ⟨⟨rfl, rfl⟩, rfl⟩, ⟨hp, rfl⟩, rfl⟩

theorem project_fails {p : Projection κ α} {f : Fault} :
    (Step.project p).Fails ctx s f ctx' s' ↔ p s.lang ctx = .error f ∧ ctx' = ctx ∧ s' = s := by
  simp only [Step.project, Step.fails_bind, Step.fails_context, Step.yields_context,
    Step.fails_ofDesk, Step.yields_ofDesk, Desk.fails_lang, Desk.yields_lang,
    Desk.fails_ofExcept, false_and, false_or]
  constructor
  · rintro ⟨_, _, _, ⟨rfl, rfl, rfl⟩, _, _, _, ⟨⟨rfl, rfl⟩, rfl⟩, ⟨hp, rfl⟩, rfl⟩
    exact ⟨hp, rfl, rfl⟩
  · rintro ⟨hp, rfl, rfl⟩
    exact ⟨_, _, _, ⟨rfl, rfl, rfl⟩, _, _, _, ⟨⟨rfl, rfl⟩, rfl⟩, ⟨hp, rfl⟩, rfl⟩

/-! ### Prompts -/

/-- A part of the prompt cannot be computed. -/
def Prompt.Broken (lang : Lang) (ctx : κ) (f : Fault) : Prompt κ → Prop
  | .select message options => message lang ctx = .error f ∨ options lang ctx = .error f
  | .confirm message initial => message lang ctx = .error f ∨ initial lang ctx = .error f
  | .text message placeholder initial =>
    message lang ctx = .error f ∨ placeholder lang ctx = .error f ∨ initial lang ctx = .error f
  | .odd _ message => message lang ctx = .error f

/-- The prompt is of a kind that can be shown. -/
def Prompt.isKnown : Prompt κ → Bool
  | .odd .. => false
  | _ => true

/-- A prompt that is answered takes the first answer of the script. -/
theorem showPrompt_yields {prompt : Prompt κ} {v : Json}
    (h : (showPrompt d name prompt).Yields ctx s v ctx' s') :
    ctx' = ctx ∧ ∃ shown rest, s.answers = .value v :: rest ∧
      s' = { s with answers := rest, log := shown :: s.log } := by
  cases prompt with
  | select message options =>
    simp only [showPrompt, Step.yields_bind, project_yields, Step.yields_ofDesk,
      Desk.yields_ask] at h
    obtain ⟨_, _, _, ⟨-, rfl, rfl⟩, _, _, _, ⟨-, rfl, rfl⟩, ⟨rest, hs, rfl⟩, rfl⟩ := h
    exact ⟨rfl, _, rest, hs, rfl⟩
  | confirm message initial =>
    simp only [showPrompt, Step.yields_bind, project_yields, Step.yields_ofDesk,
      Desk.yields_ask] at h
    obtain ⟨_, _, _, ⟨-, rfl, rfl⟩, _, _, _, ⟨-, rfl, rfl⟩, ⟨rest, hs, rfl⟩, rfl⟩ := h
    exact ⟨rfl, _, rest, hs, rfl⟩
  | text message placeholder initial =>
    simp only [showPrompt, Step.yields_bind, project_yields, Step.yields_ofDesk,
      Desk.yields_ask] at h
    obtain ⟨_, _, _, ⟨-, rfl, rfl⟩, _, _, _, ⟨-, rfl, rfl⟩, _, _, _, ⟨-, rfl, rfl⟩,
      ⟨rest, hs, rfl⟩, rfl⟩ := h
    exact ⟨rfl, _, rest, hs, rfl⟩
  | odd kind message => simp [showPrompt, Step.yields_bind, Step.blame] at h

/-- A prompt of a known kind fails because a part of it cannot be computed, or for want
of an answer. -/
theorem showPrompt_fails {prompt : Prompt κ} {f : Fault}
    (hknown : prompt.isKnown = true) (h : (showPrompt d name prompt).Fails ctx s f ctx' s') :
    ctx' = ctx ∧ (prompt.Broken s.lang ctx f ∧ s' = s ∨
      ∃ shown, (Desk.ask shown).Fails s f s') := by
  cases prompt with
  | select message options =>
    simp only [showPrompt, Step.fails_bind, project_yields, project_fails,
      Step.fails_ofDesk] at h
    rcases h with ⟨h, rfl, rfl⟩ | ⟨_, _, _, ⟨-, rfl, rfl⟩, ⟨h, rfl, rfl⟩ |
      ⟨_, _, _, ⟨-, rfl, rfl⟩, h, rfl⟩⟩
    · exact ⟨rfl, .inl ⟨.inl h, rfl⟩⟩
    · exact ⟨rfl, .inl ⟨.inr h, rfl⟩⟩
    · exact ⟨rfl, .inr ⟨_, h⟩⟩
  | confirm message initial =>
    simp only [showPrompt, Step.fails_bind, project_yields, project_fails,
      Step.fails_ofDesk] at h
    rcases h with ⟨h, rfl, rfl⟩ | ⟨_, _, _, ⟨-, rfl, rfl⟩, ⟨h, rfl, rfl⟩ |
      ⟨_, _, _, ⟨-, rfl, rfl⟩, h, rfl⟩⟩
    · exact ⟨rfl, .inl ⟨.inl h, rfl⟩⟩
    · exact ⟨rfl, .inl ⟨.inr h, rfl⟩⟩
    · exact ⟨rfl, .inr ⟨_, h⟩⟩
  | text message placeholder initial =>
    simp only [showPrompt, Step.fails_bind, project_yields, project_fails,
      Step.fails_ofDesk] at h
    rcases h with ⟨h, rfl, rfl⟩ | ⟨_, _, _, ⟨-, rfl, rfl⟩, ⟨h, rfl, rfl⟩ |
      ⟨_, _, _, ⟨-, rfl, rfl⟩, ⟨h, rfl, rfl⟩ | ⟨_, _, _, ⟨-, rfl, rfl⟩, h, rfl⟩⟩⟩
    · exact ⟨rfl, .inl ⟨.inl h, rfl⟩⟩
    · exact ⟨rfl, .inl ⟨.inr (.inl h), rfl⟩⟩
    · exact ⟨rfl, .inl ⟨.inr (.inr h), rfl⟩⟩
    · exact ⟨rfl, .inr ⟨_, h⟩⟩
  | odd kind message => simp [Prompt.isKnown] at hknown

/-! ### Events -/

theorem eventAt_router {handler : String} {h : Handler κ} (henter : state.onEnter = some handler)
    (hfind : r.find? handler = some h) : eventAt d r name state = h.run none := by
  simp only [eventAt, henter, callHandler, hfind]

theorem eventAt_prompt {prompt : Prompt κ} (henter : state.onEnter = none)
    (hprompt : state.prompt = some prompt) :
    eventAt d r name state = promptEvent d r name state prompt := by
  simp only [eventAt, henter, hprompt]

/-- The prompt takes an answer, and a null leaves it by `esc`. -/
theorem promptEvent_yields {prompt : Prompt κ} {event : Json}
    (h : (promptEvent d r name state prompt).Yields ctx s event ctx' s') :
    ∃ v s₁, s.answers = .value v :: s₁.answers ∧ s₁.folder = s.folder ∧
      (v.isNull = true ∧ event = .str "esc" ∧ ctx' = ctx ∧ s' = s₁ ∨
        v.isNull = false ∧ (match state.onSelect with
          | some handler => callHandler d r name handler (some v)
          | none => defaultEvent d name prompt v).Yields ctx s₁ event ctx' s') := by
  simp only [promptEvent, Step.yields_bind] at h
  obtain ⟨v, ctx₁, s₁, hshow, h⟩ := h
  obtain ⟨rfl, shown, rest, hanswers, rfl⟩ := showPrompt_yields hshow
  refine ⟨v, { s with answers := rest, log := shown :: s.log }, hanswers, rfl, ?_⟩
  cases hnull : v.isNull with
  | true =>
    rw [hnull, if_pos rfl, Step.yields_pure] at h
    exact .inl ⟨rfl, h⟩
  | false =>
    rw [hnull, if_neg Bool.false_ne_true] at h
    exact .inr ⟨rfl, h⟩

theorem eventAt_answered {prompt : Prompt κ} {handler : String} {h : Handler κ} {event : Json}
    (henter : state.onEnter = none) (hprompt : state.prompt = some prompt)
    (hselect : state.onSelect = some handler) (hfind : r.find? handler = some h)
    (hevent : (eventAt d r name state).Yields ctx s event ctx' s') :
    ∃ v s₁, s.answers = .value v :: s₁.answers ∧ s₁.folder = s.folder ∧
      (v.isNull = true ∧ event = .str "esc" ∧ ctx' = ctx ∧ s' = s₁ ∨
        v.isNull = false ∧ (h.run (some v)).Yields ctx s₁ event ctx' s') := by
  rw [eventAt_prompt henter hprompt] at hevent
  have hcases := promptEvent_yields hevent
  simpa only [hselect, callHandler, hfind] using hcases

theorem eventAt_unanswered {prompt : Prompt κ} {event : Json} (henter : state.onEnter = none)
    (hprompt : state.prompt = some prompt) (hselect : state.onSelect = none)
    (hevent : (eventAt d r name state).Yields ctx s event ctx' s') :
    ∃ v s₁, s.answers = .value v :: s₁.answers ∧ s₁.folder = s.folder ∧
      (v.isNull = true ∧ event = .str "esc" ∧ ctx' = ctx ∧ s' = s₁ ∨
        v.isNull = false ∧ (defaultEvent d name prompt v).Yields ctx s₁ event ctx' s') := by
  rw [eventAt_prompt henter hprompt] at hevent
  have hcases := promptEvent_yields hevent
  simpa only [hselect] using hcases

/-! ### Following an event -/

theorem follow_yields {event : Json} {target : String} :
    (follow d name state event).Yields ctx s target ctx' s' ↔
      ∃ word, event = .str word ∧ state.target? word = some target ∧ ctx' = ctx ∧
        s' = { s with log := .step d.id name word target :: s.log } := by
  unfold follow
  rcases hword : event.asString? with _ | word
  · have hne : ∀ word, event ≠ .str word := by
      rintro word rfl
      simp [Json.asString?] at hword
    simp [Step.blame, hne]
  · have hev : event = .str word := by
      cases event <;> simp_all [Json.asString?]
    rcases ht : state.target? word with _ | target'
    · simp [Step.blame, hev, ht]
    · simp only [ht, Step.yields_bind, Step.yields_ofDesk, Desk.yields_emit, Step.yields_pure]
      constructor
      · rintro ⟨_, ctx₁, s₁, ⟨rfl, rfl⟩, rfl, rfl, rfl⟩
        exact ⟨word, hev, ht, rfl, rfl⟩
      · rintro ⟨word', hev', ht', rfl, rfl⟩
        obtain rfl : word = word' := Json.str.inj (hev.symm.trans hev')
        obtain rfl : target' = target := Option.some.inj (ht.symm.trans ht')
        exact ⟨(), _, _, ⟨rfl, rfl⟩, rfl, rfl, rfl⟩

theorem follow_fails {event : Json} {f : Fault}
    (h : (follow d name state event).Fails ctx s f ctx' s') :
    f = .complaint (.flow (.unhandled d.id (some name) event)) ∧
      ∀ word, event = .str word → state.target? word = none := by
  unfold follow at h
  rcases hword : event.asString? with _ | word
  · rw [hword] at h
    refine ⟨(Step.fails_throw.mp h).1, ?_⟩
    rintro word rfl
    simp [Json.asString?] at hword
  · rw [hword] at h
    rcases ht : state.target? word with _ | target
    · simp only [ht] at h
      refine ⟨(Step.fails_throw.mp h).1, ?_⟩
      rintro word' rfl
      obtain rfl : word' = word := Option.some.inj hword
      exact ht
    · simp only [ht, Step.fails_bind, Step.fails_ofDesk, Desk.fails_emit, Step.fails_pure,
        false_and, and_false, exists_false, or_self] at h

end BuildDesk.Flow
