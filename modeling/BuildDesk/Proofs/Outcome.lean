/-
What the parts of a run come to.

A part of a run takes a session, and in a flow a context as well, and either
yields a value or fails with a fault; both ways it leaves a session and a context
behind.  This file states these two endings as relations and says how they are
put together from the endings of smaller parts:

* `Desk.yields_bind`, `Desk.fails_bind` — one part after another;
* `Step.yields_bind`, `Step.fails_bind` — the same inside a flow;
* `Step.yields_ofDesk`, `Step.fails_ofDesk` — a part that leaves the context alone;
* `Desk.yields_ask`, `Desk.fails_ask` — a prompt takes the next answer.

Both relations are functional (`Desk.Yields.unique`, `Step.Yields.unique`), since a
run is determined by the session it starts from.
-/
import BuildDesk.Flow.Basic

namespace BuildDesk

variable {α β : Type}

namespace Desk

/-- What a part comes to from a session. -/
def outcome (part : Desk α) (s : Session) : Except Fault α × Session := part.run.run s

/-- The part ends well with a value and leaves a session. -/
def Yields (part : Desk α) (s : Session) (a : α) (s' : Session) : Prop :=
  part.outcome s = (.ok a, s')

/-- The part ends in a fault and leaves a session. -/
def Fails (part : Desk α) (s : Session) (f : Fault) (s' : Session) : Prop :=
  part.outcome s = (.error f, s')

theorem Yields.unique {part : Desk α} {s s₁ s₂ : Session} {a b : α}
    (h₁ : part.Yields s a s₁) (h₂ : part.Yields s b s₂) : a = b ∧ s₁ = s₂ := by
  have h : (Except.ok a, s₁) = ((.ok b, s₂) : Except Fault α × Session) := h₁.symm.trans h₂
  simpa using h

theorem outcome_bind (part : Desk α) (next : α → Desk β) (s : Session) :
    (part >>= next).outcome s = match part.outcome s with
      | (.ok a, s₁) => (next a).outcome s₁
      | (.error f, s₁) => (.error f, s₁) := by
  have h : (part >>= next).outcome s
      = (ExceptT.bindCont next (part.outcome s).1 : StateM Session _).run (part.outcome s).2 :=
    rfl
  rw [h]
  rcases part.outcome s with ⟨r, s₁⟩
  cases r with
  | ok a => rfl
  | error f => rfl

theorem yields_bind {part : Desk α} {next : α → Desk β} {s s' : Session} {b : β} :
    (part >>= next).Yields s b s' ↔ ∃ a s₁, part.Yields s a s₁ ∧ (next a).Yields s₁ b s' := by
  unfold Yields
  rw [outcome_bind]
  rcases part.outcome s with ⟨r, s₁⟩
  cases r with
  | ok a => simp [and_assoc]
  | error f => simp

theorem fails_bind {part : Desk α} {next : α → Desk β} {s s' : Session} {f : Fault} :
    (part >>= next).Fails s f s' ↔
      part.Fails s f s' ∨ ∃ a s₁, part.Yields s a s₁ ∧ (next a).Fails s₁ f s' := by
  unfold Yields Fails
  rw [outcome_bind]
  rcases part.outcome s with ⟨r, s₁⟩
  cases r with
  | ok a => simp [and_assoc]
  | error f => simp

theorem outcome_tryCatch (part : Desk α) (handle : Fault → Desk α) (s : Session) :
    (tryCatch part handle).outcome s = match part.outcome s with
      | (.ok a, s₁) => (.ok a, s₁)
      | (.error f, s₁) => (handle f).outcome s₁ := by
  unfold outcome
  show StateT.run (ExceptT.run (ExceptT.tryCatch part handle)) s = _
  rw [ExceptT.tryCatch, ExceptT.run_mk]
  show StateT.run (part.run >>= _) s = _
  rw [StateT.run_bind]
  rcases StateT.run (ExceptT.run part) s with ⟨f | a, s₁⟩
  · rfl
  · rfl

theorem yields_tryCatch {part : Desk α} {handle : Fault → Desk α} {s s' : Session} {a : α} :
    (tryCatch part handle).Yields s a s' ↔
      part.Yields s a s' ∨ ∃ f s₁, part.Fails s f s₁ ∧ (handle f).Yields s₁ a s' := by
  unfold Yields Fails
  rw [outcome_tryCatch]
  rcases part.outcome s with ⟨f | b, s₁⟩
  · simp [and_assoc]
  · simp

theorem fails_tryCatch {part : Desk α} {handle : Fault → Desk α} {s s' : Session} {g : Fault} :
    (tryCatch part handle).Fails s g s' ↔
      ∃ f s₁, part.Fails s f s₁ ∧ (handle f).Fails s₁ g s' := by
  unfold Fails
  rw [outcome_tryCatch]
  rcases part.outcome s with ⟨f | b, s₁⟩
  · simp [and_assoc]
  · simp

@[simp] theorem yields_pure {a b : α} {s s' : Session} :
    (pure a : Desk α).Yields s b s' ↔ b = a ∧ s' = s := by
  show ((Except.ok a, s) : Except Fault α × Session) = (.ok b, s') ↔ _
  simp [eq_comm]

@[simp] theorem fails_pure {a : α} {f : Fault} {s s' : Session} :
    ¬ (pure a : Desk α).Fails s f s' := by
  show ¬ ((Except.ok a, s) : Except Fault α × Session) = (.error f, s')
  simp

@[simp] theorem yields_throw {f : Fault} {a : α} {s s' : Session} :
    ¬ (throw f : Desk α).Yields s a s' := by
  show ¬ ((Except.error f, s) : Except Fault α × Session) = (.ok a, s')
  simp

@[simp] theorem fails_throw {f g : Fault} {s s' : Session} :
    (throw f : Desk α).Fails s g s' ↔ g = f ∧ s' = s := by
  show ((Except.error f, s) : Except Fault α × Session) = (.error g, s') ↔ _
  simp [eq_comm]

theorem yields_map {part : Desk α} {g : α → β} {s s' : Session} {b : β} :
    (g <$> part).Yields s b s' ↔ ∃ a, part.Yields s a s' ∧ b = g a := by
  rw [← bind_pure_comp, yields_bind]
  constructor
  · rintro ⟨a, s₁, ha, hb⟩
    obtain ⟨rfl, rfl⟩ := yields_pure.mp hb
    exact ⟨a, ha, rfl⟩
  · rintro ⟨a, ha, rfl⟩
    exact ⟨a, s', ha, yields_pure.mpr ⟨rfl, rfl⟩⟩

/-- What looks at the session goes on from there. -/
theorem outcome_get_bind (next : Session → Desk β) (s : Session) :
    (get >>= next : Desk β).outcome s = (next s).outcome s := rfl

theorem yields_get_bind {next : Session → Desk β} {s s' : Session} {b : β} :
    (get >>= next : Desk β).Yields s b s' ↔ (next s).Yields s b s' := Iff.rfl

@[simp] theorem yields_modify {g : Session → Session} {u : Unit} {s s' : Session} :
    (modify g : Desk Unit).Yields s u s' ↔ s' = g s := by
  show ((Except.ok (), g s) : Except Fault Unit × Session) = (.ok u, s') ↔ _
  simp [eq_comm]

@[simp] theorem yields_ofExcept {e : Except Fault α} {a : α} {s s' : Session} :
    (ofExcept e).Yields s a s' ↔ e = .ok a ∧ s' = s := by
  show ((e, s) : Except Fault α × Session) = (.ok a, s') ↔ _
  simp [eq_comm]

@[simp] theorem fails_ofExcept {e : Except Fault α} {f : Fault} {s s' : Session} :
    (ofExcept e).Fails s f s' ↔ e = .error f ∧ s' = s := by
  show ((e, s) : Except Fault α × Session) = (.error f, s') ↔ _
  simp [eq_comm]

@[simp] theorem yields_emit {e : Event} {u : Unit} {s s' : Session} :
    (emit e).Yields s u s' ↔ s' = { s with log := e :: s.log } := yields_modify

@[simp] theorem fails_emit {e : Event} {f : Fault} {s s' : Session} :
    ¬ (emit e).Fails s f s' := by
  show ¬ ((Except.ok (), _) : Except Fault Unit × Session) = (.error f, s')
  simp

@[simp] theorem yields_lang {l : Lang} {s s' : Session} :
    lang.Yields s l s' ↔ l = s.lang ∧ s' = s := by
  show ((Except.ok s.lang, s) : Except Fault Lang × Session) = (.ok l, s') ↔ _
  simp [eq_comm]

@[simp] theorem fails_lang {f : Fault} {s s' : Session} : ¬ lang.Fails s f s' := by
  show ¬ ((Except.ok s.lang, s) : Except Fault Lang × Session) = (.error f, s')
  simp

/-- What comes of a prompt is settled by the first answer of the script. -/
theorem outcome_ask (prompt : Event) (s : Session) :
    (ask prompt).outcome s = match s.answers with
      | [] => (.error (.scriptEnd .answers), { s with log := prompt :: s.log })
      | .value v :: rest => (.ok v, { s with answers := rest, log := prompt :: s.log })
      | .interrupt :: rest =>
        (.error .interrupted, { s with answers := rest, log := prompt :: s.log }) := by
  rcases s with ⟨_, _, _, answers⟩
  rcases answers with _ | ⟨_ | _, rest⟩ <;> rfl

/-- A prompt that is answered took the next answer of the script. -/
theorem yields_ask {prompt : Event} {v : Json} {s s' : Session} :
    (ask prompt).Yields s v s' ↔ ∃ rest, s.answers = .value v :: rest ∧
      s' = { s with answers := rest, log := prompt :: s.log } := by
  unfold Yields
  rw [outcome_ask]
  rcases hs : s.answers with _ | ⟨w | _, rest⟩
  · simp
  · constructor
    · intro h
      obtain ⟨hw, rfl⟩ := Prod.mk.inj h
      exact ⟨rest, by rw [Except.ok.inj hw], rfl⟩
    · rintro ⟨rest', hrest, rfl⟩
      obtain ⟨hw, rfl⟩ := List.cons.inj hrest
      rw [Answer.value.inj hw]
  · simp

/-- What comes of a request is settled by the first reply of the script. -/
theorem outcome_exchange (r : Request) (s : Session) :
    (exchange r).outcome s = match s.responses with
      | [] => (.error (.scriptEnd .replies), { s with log := .http r :: s.log })
      | .reply reply seconds :: rest =>
        (.ok reply,
          { s with clock := s.clock + seconds, responses := rest, log := .http r :: s.log })
      | .unreachable message seconds :: rest =>
        (.error (.complaint (.call (.unreachable r.method r.url message))),
          { s with clock := s.clock + seconds, responses := rest, log := .http r :: s.log })
      | .interrupt seconds :: rest =>
        (.error .interrupted,
          { s with clock := s.clock + seconds, responses := rest, log := .http r :: s.log }) := by
  rcases s with ⟨_, _, _, _, responses⟩
  rcases responses with _ | ⟨_ | _ | _, rest⟩ <;> rfl

/-- A request that is served took the next reply of the script. -/
theorem yields_exchange {r : Request} {reply : Reply} {s s' : Session} :
    (exchange r).Yields s reply s' ↔ ∃ seconds rest, s.responses = .reply reply seconds :: rest ∧
      s' = { s with clock := s.clock + seconds, responses := rest, log := .http r :: s.log } := by
  unfold Yields
  rw [outcome_exchange]
  rcases hs : s.responses with _ | ⟨⟨reply', seconds⟩ | _ | _, rest⟩
  · simp
  · constructor
    · intro h
      obtain ⟨hreply, rfl⟩ := Prod.mk.inj h
      exact ⟨seconds, rest, by rw [Except.ok.inj hreply], rfl⟩
    · rintro ⟨seconds', rest', hrest, rfl⟩
      obtain ⟨hreply, rfl⟩ := List.cons.inj hrest
      obtain ⟨rfl, rfl⟩ := Response.reply.inj hreply
      rfl
  · simp
  · simp

end Desk

namespace Flow.Step

variable {κ : Type}

/-- What a part of a flow comes to from a context and a session. -/
def outcome (part : Step κ α) (ctx : κ) (s : Session) : (Except Fault α × κ) × Session :=
  (part.runFrom ctx).run s

/-- The part ends well with a value and leaves a context and a session. -/
def Yields (part : Step κ α) (ctx : κ) (s : Session) (a : α) (ctx' : κ) (s' : Session) : Prop :=
  part.outcome ctx s = ((.ok a, ctx'), s')

/-- The part ends in a fault and leaves a context and a session. -/
def Fails (part : Step κ α) (ctx : κ) (s : Session) (f : Fault) (ctx' : κ) (s' : Session) :
    Prop :=
  part.outcome ctx s = ((.error f, ctx'), s')

variable {part : Step κ α} {ctx ctx₁ ctx₂ ctx' : κ} {s s₁ s₂ s' : Session}

theorem Yields.unique {a b : α} (h₁ : part.Yields ctx s a ctx₁ s₁)
    (h₂ : part.Yields ctx s b ctx₂ s₂) : a = b ∧ ctx₁ = ctx₂ ∧ s₁ = s₂ := by
  have h : ((Except.ok a, ctx₁), s₁) = (((.ok b, ctx₂), s₂) : (Except Fault α × κ) × Session) :=
    h₁.symm.trans h₂
  simpa [and_assoc] using h

theorem outcome_bind (part : Step κ α) (next : α → Step κ β) (ctx : κ) (s : Session) :
    (part >>= next).outcome ctx s = match part.outcome ctx s with
      | ((.ok a, ctx₁), s₁) => (next a).outcome ctx₁ s₁
      | ((.error f, ctx₁), s₁) => ((.error f, ctx₁), s₁) := by
  have h : (part >>= next).outcome ctx s
      = ((ExceptT.bindCont next (part.outcome ctx s).1.1 : StateT κ (StateM Session) _).run
          (part.outcome ctx s).1.2).run (part.outcome ctx s).2 := rfl
  rw [h]
  rcases part.outcome ctx s with ⟨⟨r, ctx₁⟩, s₁⟩
  cases r with
  | ok a => rfl
  | error f => rfl

theorem yields_bind {next : α → Step κ β} {b : β} :
    (part >>= next).Yields ctx s b ctx' s' ↔
      ∃ a ctx₁ s₁, part.Yields ctx s a ctx₁ s₁ ∧ (next a).Yields ctx₁ s₁ b ctx' s' := by
  unfold Yields
  rw [outcome_bind]
  rcases part.outcome ctx s with ⟨⟨r, ctx₁⟩, s₁⟩
  cases r with
  | ok a => simp [and_assoc]
  | error f => simp

theorem fails_bind {next : α → Step κ β} {f : Fault} :
    (part >>= next).Fails ctx s f ctx' s' ↔ part.Fails ctx s f ctx' s' ∨
      ∃ a ctx₁ s₁, part.Yields ctx s a ctx₁ s₁ ∧ (next a).Fails ctx₁ s₁ f ctx' s' := by
  unfold Yields Fails
  rw [outcome_bind]
  rcases part.outcome ctx s with ⟨⟨r, ctx₁⟩, s₁⟩
  cases r with
  | ok a => simp [and_assoc]
  | error f => simp

@[simp] theorem yields_pure {a b : α} :
    (pure a : Step κ α).Yields ctx s b ctx' s' ↔ b = a ∧ ctx' = ctx ∧ s' = s := by
  show (((Except.ok a, ctx), s) : (Except Fault α × κ) × Session) = ((.ok b, ctx'), s') ↔ _
  simp [eq_comm, and_assoc]

@[simp] theorem fails_pure {a : α} {f : Fault} :
    ¬ (pure a : Step κ α).Fails ctx s f ctx' s' := by
  show ¬ (((Except.ok a, ctx), s) : (Except Fault α × κ) × Session) = ((.error f, ctx'), s')
  simp

@[simp] theorem yields_throw {f : Fault} {a : α} :
    ¬ (throw f : Step κ α).Yields ctx s a ctx' s' := by
  show ¬ (((Except.error f, ctx), s) : (Except Fault α × κ) × Session) = ((.ok a, ctx'), s')
  simp

@[simp] theorem fails_throw {f g : Fault} :
    (throw f : Step κ α).Fails ctx s g ctx' s' ↔ g = f ∧ ctx' = ctx ∧ s' = s := by
  show (((Except.error f, ctx), s) : (Except Fault α × κ) × Session) = ((.error g, ctx'), s') ↔ _
  simp [eq_comm, and_assoc]

theorem outcome_tryCatch (part : Step κ α) (handle : Fault → Step κ α) (ctx : κ) (s : Session) :
    (tryCatch part handle).outcome ctx s = match part.outcome ctx s with
      | ((.ok a, ctx₁), s₁) => ((.ok a, ctx₁), s₁)
      | ((.error f, ctx₁), s₁) => (handle f).outcome ctx₁ s₁ := by
  unfold outcome runFrom
  show ((ExceptT.run (ExceptT.tryCatch part handle)).run ctx).run s = _
  rw [ExceptT.tryCatch, ExceptT.run_mk]
  show ((part.run >>= _).run ctx).run s = _
  rw [StateT.run_bind, StateT.run_bind]
  rcases ((ExceptT.run part).run ctx).run s with ⟨⟨f | a, ctx₁⟩, s₁⟩
  · rfl
  · rfl

theorem yields_tryCatch {handle : Fault → Step κ α} {a : α} :
    (tryCatch part handle).Yields ctx s a ctx' s' ↔ part.Yields ctx s a ctx' s' ∨
      ∃ f ctx₁ s₁, part.Fails ctx s f ctx₁ s₁ ∧ (handle f).Yields ctx₁ s₁ a ctx' s' := by
  unfold Yields Fails
  rw [outcome_tryCatch]
  rcases part.outcome ctx s with ⟨⟨f | b, ctx₁⟩, s₁⟩
  · simp [and_assoc]
  · simp

theorem fails_tryCatch {handle : Fault → Step κ α} {g : Fault} :
    (tryCatch part handle).Fails ctx s g ctx' s' ↔
      ∃ f ctx₁ s₁, part.Fails ctx s f ctx₁ s₁ ∧ (handle f).Fails ctx₁ s₁ g ctx' s' := by
  unfold Fails
  rw [outcome_tryCatch]
  rcases part.outcome ctx s with ⟨⟨f | b, ctx₁⟩, s₁⟩
  · simp [and_assoc]
  · simp

theorem yields_map {g : α → β} {b : β} :
    (g <$> part).Yields ctx s b ctx' s' ↔ ∃ a, part.Yields ctx s a ctx' s' ∧ b = g a := by
  rw [← bind_pure_comp, yields_bind]
  constructor
  · rintro ⟨a, ctx₁, s₁, ha, hb⟩
    obtain ⟨rfl, rfl, rfl⟩ := yields_pure.mp hb
    exact ⟨a, ha, rfl⟩
  · rintro ⟨a, ha, rfl⟩
    exact ⟨a, ctx', s', ha, yields_pure.mpr ⟨rfl, rfl, rfl⟩⟩

@[simp] theorem yields_context {c : κ} :
    (context : Step κ κ).Yields ctx s c ctx' s' ↔ c = ctx ∧ ctx' = ctx ∧ s' = s := by
  show (((Except.ok ctx, ctx), s) : (Except Fault κ × κ) × Session) = ((.ok c, ctx'), s') ↔ _
  simp [eq_comm, and_assoc]

@[simp] theorem fails_context {f : Fault} : ¬ (context : Step κ κ).Fails ctx s f ctx' s' := by
  show ¬ (((Except.ok ctx, ctx), s) : (Except Fault κ × κ) × Session) = ((.error f, ctx'), s')
  simp

@[simp] theorem yields_session {t : Session} :
    (getThe Session : Step κ Session).Yields ctx s t ctx' s' ↔ t = s ∧ ctx' = ctx ∧ s' = s := by
  show (((Except.ok s, ctx), s) : (Except Fault Session × κ) × Session) = ((.ok t, ctx'), s') ↔ _
  simp [eq_comm, and_assoc]

@[simp] theorem yields_change {g : κ → κ} {u : Unit} :
    (change g).Yields ctx s u ctx' s' ↔ ctx' = g ctx ∧ s' = s := by
  show (((Except.ok (), g ctx), s) : (Except Fault Unit × κ) × Session) = ((.ok u, ctx'), s') ↔ _
  simp [eq_comm]

/-- What looks at the context goes on from there. -/
theorem yields_context_bind {next : κ → Step κ β} {b : β} :
    (context >>= next).Yields ctx s b ctx' s' ↔ (next ctx).Yields ctx s b ctx' s' := Iff.rfl

theorem yields_change_bind {g : κ → κ} {next : Unit → Step κ β} {b : β} :
    (change g >>= next).Yields ctx s b ctx' s' ↔ (next ()).Yields (g ctx) s b ctx' s' := Iff.rfl

/-- A part that leaves the context alone comes to what it comes to outside of the flow. -/
theorem outcome_ofDesk (part : Desk α) (ctx : κ) (s : Session) :
    (ofDesk part : Step κ α).outcome ctx s = (((part.outcome s).1, ctx), (part.outcome s).2) := rfl

theorem yields_ofDesk {part : Desk α} {a : α} :
    (ofDesk part : Step κ α).Yields ctx s a ctx' s' ↔ part.Yields s a s' ∧ ctx' = ctx := by
  show ((((part.outcome s).1, ctx), (part.outcome s).2) : (Except Fault α × κ) × Session)
    = ((.ok a, ctx'), s') ↔ part.outcome s = _ ∧ _
  rcases part.outcome s with ⟨r, s₁⟩
  simp only [Prod.mk.injEq]
  constructor
  · rintro ⟨⟨rfl, rfl⟩, rfl⟩
    exact ⟨⟨rfl, rfl⟩, rfl⟩
  · rintro ⟨⟨rfl, rfl⟩, rfl⟩
    exact ⟨⟨rfl, rfl⟩, rfl⟩

theorem fails_ofDesk {part : Desk α} {f : Fault} :
    (ofDesk part : Step κ α).Fails ctx s f ctx' s' ↔ part.Fails s f s' ∧ ctx' = ctx := by
  show ((((part.outcome s).1, ctx), (part.outcome s).2) : (Except Fault α × κ) × Session)
    = ((.error f, ctx'), s') ↔ part.outcome s = _ ∧ _
  rcases part.outcome s with ⟨r, s₁⟩
  simp only [Prod.mk.injEq]
  constructor
  · rintro ⟨⟨rfl, rfl⟩, rfl⟩
    exact ⟨⟨rfl, rfl⟩, rfl⟩
  · rintro ⟨⟨rfl, rfl⟩, rfl⟩
    exact ⟨⟨rfl, rfl⟩, rfl⟩

end Flow.Step
end BuildDesk
