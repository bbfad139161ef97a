/-
Two runs side by side.

Two runs of a flow may start from contexts that differ, and go on alike as long as they
look at what the contexts have in common.  `Step.Agree` says so of two parts: from
related contexts, and with the same folder, they yield the same value and leave related
contexts and the same folder.

* `Step.agree_bind`, `Step.agree_context`, `Step.agree_change` — how agreement is put
  together;
* `Step.agree_onFolder`, `Step.agree_onlyLogs` — parts outside of the flow;
* `agree_ofChange`, `agree_settling` — handlers;
* `AgreeAt` — a visit: with the same answer two runs leave a state by the same event.
-/
import BuildDesk.Proofs.Flow.Handler

namespace BuildDesk.Flow

variable {κ α β : Type} {R : κ → κ → Prop}

namespace Step

/-- From related contexts and the same folder the parts yield the same value, and leave
related contexts and the same folder. -/
def Agree (R : κ → κ → Prop) (part part' : Step κ α) : Prop :=
  ∀ c d c' d' s t s' t' a b, R c d → s.folder = t.folder → part.Yields c s a c' s' →
    part'.Yields d t b d' t' → a = b ∧ R c' d' ∧ s'.folder = t'.folder

theorem agree_pure (a : α) : Agree R (pure a) (pure a) := by
  intro c d c' d' s t s' t' x y hR hfolder hx hy
  obtain ⟨rfl, rfl, rfl⟩ := yields_pure.mp hx
  obtain ⟨rfl, rfl, rfl⟩ := yields_pure.mp hy
  exact ⟨rfl, hR, hfolder⟩

theorem agree_bind {part part' : Step κ α} {next next' : α → Step κ β} (h : Agree R part part')
    (hnext : ∀ a, Agree R (next a) (next' a)) : Agree R (part >>= next) (part' >>= next') := by
  intro c d c' d' s t s' t' x y hR hfolder hx hy
  obtain ⟨a, c₁, s₁, hpart, hrest⟩ := yields_bind.mp hx
  obtain ⟨b, d₁, t₁, hpart', hrest'⟩ := yields_bind.mp hy
  obtain ⟨rfl, hR₁, hfolder₁⟩ := h _ _ _ _ _ _ _ _ _ _ hR hfolder hpart hpart'
  exact hnext a _ _ _ _ _ _ _ _ _ _ hR₁ hfolder₁ hrest hrest'

/-- What is looked at may differ, but what comes of it may not. -/
theorem agree_context {next next' : κ → Step κ α}
    (h : ∀ c d, R c d → Agree R (next c) (next' d)) :
    Agree R (context >>= next) (context >>= next') := by
  intro c d c' d' s t s' t' x y hR hfolder hx hy
  exact h c d hR _ _ _ _ _ _ _ _ _ _ hR hfolder hx hy

theorem agree_change {g g' : κ → κ} (h : ∀ c d, R c d → R (g c) (g' d)) :
    Agree R (change g) (change g') := by
  intro c d c' d' s t s' t' x y hR hfolder hx hy
  obtain ⟨rfl, rfl⟩ := yields_change.mp hx
  obtain ⟨rfl, rfl⟩ := yields_change.mp hy
  exact ⟨rfl, h c d hR, hfolder⟩

theorem agree_onFolder {part : Desk α} (h : part.OnFolder) :
    Agree R (ofDesk part) (ofDesk part) := by
  intro c d c' d' s t s' t' x y hR hfolder hx hy
  obtain ⟨hpart, rfl⟩ := yields_ofDesk.mp hx
  obtain ⟨hpart', rfl⟩ := yields_ofDesk.mp hy
  obtain ⟨rfl, hfolder'⟩ := h.alike hpart hpart' hfolder
  exact ⟨rfl, hR, hfolder'⟩

/-- What is printed may differ. -/
theorem agree_onlyLogs {part part' : Desk Unit} (h : part.OnlyLogs) (h' : part'.OnlyLogs) :
    Agree R (ofDesk part) (ofDesk part') := by
  intro c d c' d' s t s' t' x y hR hfolder hx hy
  obtain ⟨hpart, rfl⟩ := yields_ofDesk.mp hx
  obtain ⟨hpart', rfl⟩ := yields_ofDesk.mp hy
  refine ⟨rfl, hR, ?_⟩
  rw [(h _ _ _ hpart).folder_eq, (h' _ _ _ hpart').folder_eq, hfolder]

end Step

/-! ### Handlers -/

variable {emits : Option (List String)} {v : Json} {h : Handler κ}

theorem agree_ofChange {change : Json → κ → String × κ} {value : Option Json}
    (hchange : ∀ c d, R c d →
      (change (value.getD .null) c).1 = (change (value.getD .null) d).1 ∧
        R (change (value.getD .null) c).2 (change (value.getD .null) d).2) :
    Step.Agree R ((Handler.ofChange emits change).run value)
      ((Handler.ofChange emits change).run value) := by
  intro c d c' d' s t s' t' x y hR hfolder hx hy
  obtain ⟨rfl, rfl, rfl⟩ := yields_ofChange.mp hx
  obtain ⟨rfl, rfl, rfl⟩ := yields_ofChange.mp hy
  obtain ⟨hevent, hR'⟩ := hchange c d hR
  exact ⟨congrArg Json.str hevent, hR', hfolder⟩

/-- An answer that settles the event does so whatever the context is. -/
theorem agree_settling {atOnce : Json → Option (Desk String)} (hnone : h.atOnce = fun _ => none)
    (hatOnce : ∀ part, atOnce v = some part → ∃ event, part.Gives event)
    (hagree : Step.Agree R (h.run (some v)) (h.run (some v))) :
    Step.Agree R ((h.settling atOnce).run (some v)) ((h.settling atOnce).run (some v)) := by
  intro c d c' d' s t s' t' x y hR hfolder hx hy
  rcases yields_settling hnone hx with ⟨part, said, hpart, hsaid, rfl, rfl⟩ | ⟨hopen, hrun⟩
  · rcases yields_settling hnone hy with ⟨part', said', hpart', hsaid', rfl, rfl⟩ | ⟨hopen, -⟩
    · obtain rfl : part = part' := Option.some.inj (hpart.symm.trans hpart')
      obtain ⟨event, hgives⟩ := hatOnce part hpart
      obtain ⟨rfl, hlogs⟩ := hgives _ _ _ hsaid
      obtain ⟨rfl, hlogs'⟩ := hgives _ _ _ hsaid'
      exact ⟨rfl, hR, by rw [hlogs.folder_eq, hlogs'.folder_eq, hfolder]⟩
    · exact absurd (hpart.symm.trans hopen) nofun
  · rcases yields_settling hnone hy with ⟨part', -, hpart', -⟩ | ⟨-, hrun'⟩
    · exact absurd (hpart'.symm.trans hopen) nofun
    · exact hagree _ _ _ _ _ _ _ _ _ _ hR hfolder hrun hrun'

/-! ### Visits -/

variable {d : Definition κ} {r : Registry κ} {name : String} {state : State κ}

/-- From related contexts, with the same folder, and with the same next answer unless the
state is a router, two runs leave the state by the same event. -/
def AgreeAt (R : κ → κ → Prop) (d : Definition κ) (r : Registry κ) (name : String)
    (state : State κ) : Prop :=
  ∀ c c₁ c' c₁' s t s' t' x y, R c c₁ → s.folder = t.folder →
    (state.onEnter = none → s.answers.head? = t.answers.head?) →
    (eventAt d r name state).Yields c s x c' s' → (eventAt d r name state).Yields c₁ t y c₁' t' →
      x = y ∧ R c' c₁' ∧ s'.folder = t'.folder

theorem agreeAt_router {handler : String} (henter : state.onEnter = some handler)
    (hfind : r.find? handler = some h) (hagree : Step.Agree R (h.run none) (h.run none)) :
    AgreeAt R d r name state := by
  intro c c₁ c' c₁' s t s' t' x y hR hfolder _ hx hy
  rw [eventAt_router henter hfind] at hx hy
  exact hagree _ _ _ _ _ _ _ _ _ _ hR hfolder hx hy

/-- Two runs that take the same answer both cancel the prompt, or both go on. -/
theorem agreeAt_prompt {prompt : Prompt κ} (henter : state.onEnter = none)
    (hprompt : state.prompt = some prompt)
    (hagree : ∀ v, Step.Agree R
      (match state.onSelect with
        | some handler => callHandler d r name handler (some v)
        | none => defaultEvent d name prompt v)
      (match state.onSelect with
        | some handler => callHandler d r name handler (some v)
        | none => defaultEvent d name prompt v)) : AgreeAt R d r name state := by
  intro c c₁ c' c₁' s t s' t' x y hR hfolder hhead hx hy
  rw [eventAt_prompt henter hprompt] at hx hy
  obtain ⟨v, s₁, hs, hs₁, hx⟩ := promptEvent_yields hx
  obtain ⟨w, t₁, ht, ht₁, hy⟩ := promptEvent_yields hy
  -- both take the first answer that they have
  obtain rfl : v = w := by
    have hfirst := hhead henter
    rw [hs, ht] at hfirst
    exact Answer.value.inj (Option.some.inj hfirst)
  have hfolder₁ : s₁.folder = t₁.folder := by rw [hs₁, ht₁, hfolder]
  rcases hx with ⟨hnull, rfl, rfl, rfl⟩ | ⟨hsome, hx⟩
  · rcases hy with ⟨-, rfl, rfl, rfl⟩ | ⟨hsome, -⟩
    · exact ⟨rfl, hR, hfolder₁⟩
    · exact absurd (hnull.symm.trans hsome) nofun
  · rcases hy with ⟨hnull, -⟩ | ⟨-, hy⟩
    · exact absurd (hnull.symm.trans hsome) nofun
    · exact hagree v _ _ _ _ _ _ _ _ _ _ hR hfolder₁ hx hy

theorem agreeAt_answered {prompt : Prompt κ} {handler : String} (henter : state.onEnter = none)
    (hprompt : state.prompt = some prompt) (hselect : state.onSelect = some handler)
    (hfind : r.find? handler = some h)
    (hagree : ∀ v, Step.Agree R (h.run (some v)) (h.run (some v))) : AgreeAt R d r name state := by
  refine agreeAt_prompt henter hprompt fun v => ?_
  simpa only [hselect, callHandler, hfind] using hagree v

/-- A question with no handler asks the same of both. -/
theorem agreeAt_confirm {message initial : Projection κ Json} (henter : state.onEnter = none)
    (hprompt : state.prompt = some (.confirm message initial)) (hselect : state.onSelect = none) :
    AgreeAt R d r name state := by
  refine agreeAt_prompt henter hprompt fun v => ?_
  simp only [hselect]
  exact Step.agree_pure _

end BuildDesk.Flow
