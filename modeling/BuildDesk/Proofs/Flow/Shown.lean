/-
Prompts that are shown.

A prompt is shown when all its parts can be computed, and then it takes the next answer of the
script.  The prompts of the four flows name the server that they are about, and this is the one
part that can be missing:

* `Prompt.Shows`, `exists_shown` — a prompt that can be shown takes the next answer;
* `exists_eventAt` — then the handler of the state gives the event;
* `Settings.IsNamed` — the server can be named, as it can unless its profile is no text;
* `Prompt.NamesServer.shows`, `Prompt.NamesServer.fails` — a prompt that names the server is shown
  when the server can be named, and else nothing is asked;
* `Definition.asks`, `Prepare.asks_name` — the states that ask something; in the flow that prepares
  a build these are the ones with a way back.
-/
import BuildDesk.Proofs.Fair.Tables

namespace BuildDesk

/-- The profile of the settings can be named. -/
def Settings.IsNamed (settings : Settings) : Prop :=
  ∃ label, Settings.profileLabel settings.profile = .ok label

/-- A profile that is a text can be named, and so can none. -/
theorem Settings.isNamed_of_text {settings : Settings}
    (h : settings.profile = .null ∨ ∃ name, settings.profile = .str name) : settings.IsNamed := by
  have htext : ∃ name, settings.profile.orElse (.str "") = .str name := by
    rcases h with h | ⟨name, h⟩
    · exact ⟨"", by rw [h]; rfl⟩
    · rw [h, Json.orElse]
      split
      · exact ⟨name, rfl⟩
      · exact ⟨"", rfl⟩
  obtain ⟨name, hname⟩ := htext
  unfold IsNamed profileLabel
  rw [hname]
  exact ⟨_, rfl⟩

namespace Flow

variable {κ : Type} {d : Definition κ} {r : Registry κ} {name : String} {ctx : κ} {s : Session}

/-- The prompt is of a kind that can be shown, and no part of it is missing. -/
def Prompt.Shows (prompt : Prompt κ) (ctx : κ) : Prop :=
  prompt.isKnown = true ∧ ∀ lang f, ¬ prompt.Broken lang ctx f

/-- A part of a prompt is there, or it is missing for a reason. -/
theorem project_cases {α : Type} (p : Projection κ α) (ctx : κ) (s : Session) :
    (∃ f, p s.lang ctx = .error f ∧ (Step.project p).Fails ctx s f ctx s) ∨
      ∃ a, p s.lang ctx = .ok a ∧ (Step.project p).Yields ctx s a ctx s := by
  rcases hp : p s.lang ctx with f | a
  · exact .inl ⟨f, rfl, project_fails.mpr ⟨hp, rfl, rfl⟩⟩
  · exact .inr ⟨a, rfl, project_yields.mpr ⟨hp, rfl, rfl⟩⟩

/-- A prompt of a known kind has a part missing, or its parts are there, and then it is asked. -/
theorem showPrompt_cases (d : Definition κ) (name : String) {prompt : Prompt κ}
    (hknown : prompt.isKnown = true) (ctx : κ) (s : Session) :
    (∃ f, prompt.Broken s.lang ctx f ∧ (showPrompt d name prompt).Fails ctx s f ctx s) ∨
      ∃ shown : Event, shown.isPrompt = true ∧ (∀ f, ¬ prompt.Broken s.lang ctx f) ∧
        ∀ {v t}, (Desk.ask shown).Yields s v t →
          (showPrompt d name prompt).Yields ctx s v ctx t := by
  have hasked : ∀ {shown v t}, (Desk.ask shown).Yields s v t →
      (Step.ofDesk (Desk.ask shown) : Step κ Json).Yields ctx s v ctx t := fun h =>
    Step.yields_ofDesk.mpr ⟨h, rfl⟩
  have hwhole : ∀ {α : Type} {p : Projection κ α} {a : α} {f : Fault}, p s.lang ctx = .ok a →
      ¬ p s.lang ctx = .error f := fun ha hf => nomatch ha.symm.trans hf
  cases prompt with
  | select message options =>
    rcases project_cases message ctx s with ⟨f, hf, hfails⟩ | ⟨m, hm, hmessage⟩
    · exact .inl ⟨f, .inl hf, Step.fails_bind.mpr (.inl hfails)⟩
    rcases project_cases options ctx s with ⟨f, hf, hfails⟩ | ⟨o, ho, hoptions⟩
    · exact .inl ⟨f, .inr hf, Step.fails_bind.mpr (.inr ⟨m, ctx, s, hmessage,
        Step.fails_bind.mpr (.inl hfails)⟩)⟩
    · exact .inr ⟨.select m o, rfl, fun f hf => hf.elim (hwhole hm) (hwhole ho), fun h =>
        Step.yields_bind.mpr ⟨m, ctx, s, hmessage, Step.yields_bind.mpr
          ⟨o, ctx, s, hoptions, hasked h⟩⟩⟩
  | confirm message initial =>
    rcases project_cases message ctx s with ⟨f, hf, hfails⟩ | ⟨m, hm, hmessage⟩
    · exact .inl ⟨f, .inl hf, Step.fails_bind.mpr (.inl hfails)⟩
    rcases project_cases initial ctx s with ⟨f, hf, hfails⟩ | ⟨i, hi, hinitial⟩
    · exact .inl ⟨f, .inr hf, Step.fails_bind.mpr (.inr ⟨m, ctx, s, hmessage,
        Step.fails_bind.mpr (.inl hfails)⟩)⟩
    · exact .inr ⟨.confirm m i, rfl, fun f hf => hf.elim (hwhole hm) (hwhole hi), fun h =>
        Step.yields_bind.mpr ⟨m, ctx, s, hmessage, Step.yields_bind.mpr
          ⟨i, ctx, s, hinitial, hasked h⟩⟩⟩
  | text message placeholder initial =>
    rcases project_cases message ctx s with ⟨f, hf, hfails⟩ | ⟨m, hm, hmessage⟩
    · exact .inl ⟨f, .inl hf, Step.fails_bind.mpr (.inl hfails)⟩
    rcases project_cases placeholder ctx s with ⟨f, hf, hfails⟩ | ⟨p, hp, hplaceholder⟩
    · exact .inl ⟨f, .inr (.inl hf), Step.fails_bind.mpr (.inr ⟨m, ctx, s, hmessage,
        Step.fails_bind.mpr (.inl hfails)⟩)⟩
    rcases project_cases initial ctx s with ⟨f, hf, hfails⟩ | ⟨i, hi, hinitial⟩
    · exact .inl ⟨f, .inr (.inr hf), Step.fails_bind.mpr (.inr ⟨m, ctx, s, hmessage,
        Step.fails_bind.mpr (.inr ⟨p, ctx, s, hplaceholder,
          Step.fails_bind.mpr (.inl hfails)⟩)⟩)⟩
    · exact .inr ⟨.text m p i, rfl,
        fun f hf => hf.elim (hwhole hm) fun hf => hf.elim (hwhole hp) (hwhole hi), fun h =>
        Step.yields_bind.mpr ⟨m, ctx, s, hmessage, Step.yields_bind.mpr ⟨p, ctx, s, hplaceholder,
          Step.yields_bind.mpr ⟨i, ctx, s, hinitial, hasked h⟩⟩⟩⟩
  | odd => cases hknown

/-- A prompt that can be shown takes the next answer. -/
theorem exists_shown (d : Definition κ) (name : String) {prompt : Prompt κ} {v : Json}
    {rest : List Answer} (h : prompt.Shows ctx) (hanswers : s.answers = .value v :: rest) :
    ∃ shown : Event, shown.isPrompt = true ∧ (showPrompt d name prompt).Yields ctx s v ctx
      { s with answers := rest, log := shown :: s.log } := by
  rcases showPrompt_cases d name h.1 ctx s with ⟨f, hbroken, -⟩ | ⟨shown, hshown, -, hyields⟩
  · exact absurd hbroken (h.2 s.lang f)
  · exact ⟨shown, hshown, hyields (Desk.yields_ask.mpr ⟨rest, hanswers, rfl⟩)⟩

/-- An answer that does not cancel the prompt is handed to the handler of the state. -/
theorem exists_eventAt (d : Definition κ) (r : Registry κ) (name : String) (state : State κ)
    {prompt : Prompt κ} {handler : String} {h : Handler κ} {v event : Json} {rest : List Answer}
    {ctx' : κ} (henter : state.onEnter = none) (hprompt : state.prompt = some prompt)
    (hselect : state.onSelect = some handler) (hfind : r.find? handler = some h)
    (hshows : prompt.Shows ctx) (hanswers : s.answers = .value v :: rest) (hsome : v.isNull = false)
    (hrun : ∀ t, (h.run (some v)).Yields ctx t event ctx' t) :
    ∃ s', s'.answers = rest ∧ (eventAt d r name state).Yields ctx s event ctx' s' := by
  obtain ⟨shown, -, hyields⟩ := exists_shown d name hshows hanswers
  refine ⟨{ s with answers := rest, log := shown :: s.log }, rfl, ?_⟩
  rw [eventAt_prompt henter hprompt]
  refine Step.yields_bind.mpr ⟨v, ctx, _, hyields, ?_⟩
  rw [hsome, if_neg Bool.false_ne_true]
  simp only [hselect, callHandler, hfind]
  exact hrun _

/-- The state asks something. -/
def Definition.asks (d : Definition κ) (name : String) : Bool :=
  (d.state? name).any fun state => state.onEnter.isNone && state.prompt.isSome

theorem exists_of_asks (h : d.asks name = true) : ∃ state prompt, d.state? name = some state ∧
    state.onEnter = none ∧ state.prompt = some prompt := by
  obtain ⟨state, hstate, hasks⟩ := (Option.any_eq_true _ _).mp h
  obtain ⟨henter, hprompt⟩ := Bool.and_eq_true_iff.mp hasks
  obtain ⟨prompt, hprompt⟩ := Option.isSome_iff_exists.mp hprompt
  exact ⟨state, prompt, hstate, Option.isNone_iff_eq_none.mp henter, hprompt⟩

section

variable [Addressed κ]

theorem Prompt.NamesServer.shows {prompt : Prompt κ} (h : prompt.NamesServer)
    (hnamed : (Addressed.settings ctx).IsNamed) : prompt.Shows ctx := by
  obtain ⟨label, hlabel⟩ := hnamed
  exact ⟨h.1, fun lang f hbroken => nomatch hlabel.symm.trans ((h.2 lang ctx f).mp hbroken)⟩

/-- Where the server cannot be named, nothing is asked. -/
theorem Prompt.NamesServer.fails {prompt : Prompt κ} {f : Fault} (h : prompt.NamesServer)
    (hunnamed : Settings.profileLabel (Addressed.settings ctx).profile = .error f) :
    (showPrompt d name prompt).Fails ctx s f ctx s := by
  rcases showPrompt_cases d name h.1 ctx s with ⟨g, hbroken, hfails⟩ | ⟨-, -, hwhole, -⟩
  · have hsame : g = f :=
      Except.error.inj (((h.2 s.lang ctx g).mp hbroken).symm.trans hunnamed)
    exact hsame ▸ hfails
  · exact absurd ((h.2 s.lang ctx f).mpr hunnamed) (hwhole f)

end

namespace Prepare

theorem asks_name : ∀ p : Spot, table.asks p.name = p.back?.isSome :=
  Spot.forall_of_all (by decide)

theorem asks_of_back {p : Spot} {goal : Goal} (hback : p.back? = some goal) :
    table.asks p.name = true := by
  rw [asks_name, hback, Option.isSome_some]

theorem exists_back_of_asks {name : String} (h : table.asks name = true) :
    ∃ (p : Spot) (goal : Goal), p.name = name ∧ p.back? = some goal := by
  obtain ⟨state, prompt, hstate, -⟩ := exists_of_asks h
  obtain ⟨p, rfl⟩ := Spot.exists_of_state? hstate
  rw [asks_name] at h
  obtain ⟨goal, hback⟩ := Option.isSome_iff_exists.mp h
  exact ⟨p, goal, rfl, hback⟩

end Prepare
end Flow
end BuildDesk
