/-
Parts of a run that do not look aside.

A session carries things that most parts of a run have no use for: no part looks at what was
logged before, and few look at the folder.  To put such things aside is to run the part from
a session that has others in their place (`Session.aside`).  A part overlooks them when it
comes to the same, and leaves the session that it would leave, with the other things in place:

* `Desk.Overlooks`, `Flow.Step.Overlooks` — the frame, for parts of commands and of flows;
* `overlooks_bind`, `overlooks_tryCatch`, `overlooks_get_bind` — it is kept by putting parts
  together;
* `overlooks_ask`, `overlooks_exchange`, `overlooks_pause` — the steps of a run are in it,
  whatever is put aside;
* `OnFolder.overlooks` — what reads and writes the folder overlooks the log;
* `Flow.Step.folder_of_overlooks` — what overlooks the folder keeps it.
-/
import BuildDesk.Proofs.Frame

namespace BuildDesk

variable {α β κ : Type} {φ : Folder → Folder} {old : List Event}

/-- The session with another folder, and with more in its log from before. -/
def Session.aside (φ : Folder → Folder) (old : List Event) (s : Session) : Session :=
  { s with folder := φ s.folder, log := s.log ++ old }

namespace Desk

/-- What is put aside makes no difference to the part, and the part leaves it as it is. -/
def Overlooks (φ : Folder → Folder) (old : List Event) (part : Desk α) : Prop :=
  ∀ s : Session, part.outcome (s.aside φ old) =
    ((part.outcome s).1, (part.outcome s).2.aside φ old)

variable {part : Desk α} {next : α → Desk β}

theorem Overlooks.yields (h : part.Overlooks φ old) {s s' : Session} {a : α}
    (hy : part.Yields s a s') : part.Yields (s.aside φ old) a (s'.aside φ old) := by
  unfold Yields at *
  rw [h, hy]

theorem Overlooks.fails (h : part.Overlooks φ old) {s s' : Session} {f : Fault}
    (hf : part.Fails s f s') : part.Fails (s.aside φ old) f (s'.aside φ old) := by
  unfold Fails at *
  rw [h, hf]

/-- A part that overlooks the folder comes to the same from any folder, and keeps it. -/
theorem Overlooks.outcome_folder {f : Folder} (h : part.Overlooks (fun _ => f) [])
    (s : Session) : part.outcome { s with folder := f } =
      ((part.outcome s).1, { (part.outcome s).2 with folder := f }) := by
  have haside : ∀ t : Session, t.aside (fun _ => f) [] = { t with folder := f } := fun t => by
    rw [Session.aside, List.append_nil]
  have hout := h s
  rwa [haside, haside] at hout

/-! ### Putting parts together -/

theorem overlooks_pure (a : α) : (pure a : Desk α).Overlooks φ old := fun _ => rfl

theorem overlooks_throw (f : Fault) : (throw f : Desk α).Overlooks φ old := fun _ => rfl

theorem overlooks_complain (c : Complaint) : (complain c : Desk α).Overlooks φ old := fun _ => rfl

theorem overlooks_ofExcept (e : Except Fault α) : (ofExcept e).Overlooks φ old := fun _ => rfl

theorem overlooks_bind (h : part.Overlooks φ old) (hnext : ∀ a, (next a).Overlooks φ old) :
    (part >>= next).Overlooks φ old := by
  intro s
  rw [outcome_bind, outcome_bind, h s]
  rcases part.outcome s with ⟨f | a, s₁⟩
  · rfl
  · exact hnext a s₁

theorem overlooks_map (f : α → β) (h : part.Overlooks φ old) : (f <$> part).Overlooks φ old := by
  rw [← bind_pure_comp]
  exact overlooks_bind h fun a => overlooks_pure (f a)

/-- Nothing comes after a fault. -/
theorem overlooks_throw_bind (f : Fault) (next : α → Desk β) :
    (throw f >>= next).Overlooks φ old := fun _ => rfl

/-- The session may be looked at when nothing but the rest of it counts. -/
theorem overlooks_get_bind {next : Session → Desk β} (hnext : ∀ s, (next s).Overlooks φ old)
    (halike : ∀ s : Session, next (s.aside φ old) = next s) :
    (get >>= next : Desk β).Overlooks φ old := by
  intro s
  rw [outcome_get_bind, outcome_get_bind, halike]
  exact hnext s s

theorem overlooks_modify {g : Session → Session}
    (h : ∀ s : Session, g (s.aside φ old) = (g s).aside φ old) :
    (modify g : Desk Unit).Overlooks φ old := fun s => Prod.ext rfl (h s)

theorem overlooks_tryCatch {handle : Fault → Desk α} (h : part.Overlooks φ old)
    (hhandle : ∀ f, (handle f).Overlooks φ old) : (tryCatch part handle).Overlooks φ old := by
  intro s
  rw [outcome_tryCatch, outcome_tryCatch, h s]
  rcases part.outcome s with ⟨f | a, s₁⟩
  · exact hhandle f s₁
  · rfl

theorem overlooks_rescue {handle : Complaint → Desk α} (h : part.Overlooks φ old)
    (hhandle : ∀ c, (handle c).Overlooks φ old) : (rescue part handle).Overlooks φ old := by
  refine overlooks_tryCatch h fun f => ?_
  cases f with
  | complaint c => exact hhandle c
  | _ => exact overlooks_throw _

/-! ### Loops over the items of a list -/

theorem overlooks_forM (items : List α) {part : α → Desk PUnit}
    (h : ∀ a, (part a).Overlooks φ old) : (items.forM part).Overlooks φ old := by
  induction items with
  | nil => exact overlooks_pure _
  | cons a rest ih => exact overlooks_bind (h a) fun _ => ih

/-! ### Steps -/

theorem overlooks_emit (e : Event) : (emit e).Overlooks φ old := fun _ => rfl

theorem overlooks_lang : lang.Overlooks φ old := fun _ => rfl

theorem overlooks_clock : clock.Overlooks φ old := fun _ => rfl

theorem overlooks_say (p : Phrase) (args : Arguments) : (say p args).Overlooks φ old :=
  fun _ => rfl

theorem overlooks_refuse (message : Notice) (args : Arguments) (hint : Option Notice) :
    (refuse message args hint : Desk α).Overlooks φ old := fun _ => rfl

/-- Nothing comes after a refusal. -/
theorem overlooks_refuse_bind (message : Notice) (args : Arguments) (hint : Option Notice)
    (next : α → Desk β) : (refuse message args hint >>= next).Overlooks φ old := fun _ => rfl

theorem overlooks_ask (prompt : Event) : (ask prompt).Overlooks φ old := by
  intro s
  rw [outcome_ask, outcome_ask]
  have hanswers : (s.aside φ old).answers = s.answers := rfl
  rw [hanswers]
  rcases s.answers with _ | ⟨v | _, rest⟩
  · rfl
  · rfl
  · rfl

theorem overlooks_exchange (r : Request) : (exchange r).Overlooks φ old := by
  intro s
  rw [outcome_exchange, outcome_exchange]
  have hresponses : (s.aside φ old).responses = s.responses := rfl
  rw [hresponses]
  rcases s.responses with _ | ⟨_ | _ | _, rest⟩
  · rfl
  · rfl
  · rfl
  · rfl

theorem overlooks_pause (seconds : Float) : (pause seconds).Overlooks φ old := by
  refine overlooks_bind (overlooks_emit _) fun _ => overlooks_get_bind (fun s => ?_) fun _ => rfl
  refine overlooks_bind (overlooks_modify fun _ => rfl) fun _ => ?_
  dsimp only
  split
  · exact overlooks_throw_bind _ _
  · exact overlooks_modify fun _ => rfl

/-- What is settled by the folder is not settled by the log. -/
theorem OnFolder.overlooks (h : part.OnFolder) : part.Overlooks id old := by
  intro s
  obtain ⟨work, hwork⟩ := h
  rw [hwork, hwork]
  rfl

end Desk

/-! ### Parts of flows -/

namespace Flow.Step

/-- What is put aside makes no difference to the part, and the part leaves it as it is. -/
def Overlooks (φ : Folder → Folder) (old : List Event) (part : Step κ α) : Prop :=
  ∀ ctx (s : Session), part.outcome ctx (s.aside φ old) =
    ((part.outcome ctx s).1, (part.outcome ctx s).2.aside φ old)

variable {part : Step κ α} {next : α → Step κ β}

theorem overlooks_pure (a : α) : (pure a : Step κ α).Overlooks φ old := fun _ _ => rfl

theorem overlooks_throw (f : Fault) : (throw f : Step κ α).Overlooks φ old := fun _ _ => rfl

theorem overlooks_context : (context : Step κ κ).Overlooks φ old := fun _ _ => rfl

theorem overlooks_change (g : κ → κ) : (change g).Overlooks φ old := fun _ _ => rfl

theorem overlooks_bind (h : part.Overlooks φ old) (hnext : ∀ a, (next a).Overlooks φ old) :
    (part >>= next).Overlooks φ old := by
  intro ctx s
  rw [outcome_bind, outcome_bind, h ctx s]
  rcases part.outcome ctx s with ⟨⟨f | a, ctx₁⟩, s₁⟩
  · rfl
  · exact hnext a ctx₁ s₁

theorem overlooks_map (f : α → β) (h : part.Overlooks φ old) : (f <$> part).Overlooks φ old := by
  rw [← bind_pure_comp]
  exact overlooks_bind h fun a => overlooks_pure (f a)

theorem overlooks_tryCatch {handle : Fault → Step κ α} (h : part.Overlooks φ old)
    (hhandle : ∀ f, (handle f).Overlooks φ old) : (tryCatch part handle).Overlooks φ old := by
  intro ctx s
  rw [outcome_tryCatch, outcome_tryCatch, h ctx s]
  rcases part.outcome ctx s with ⟨⟨f | a, ctx₁⟩, s₁⟩
  · exact hhandle f ctx₁ s₁
  · rfl

theorem overlooks_ofDesk {part : Desk α} (h : part.Overlooks φ old) :
    (ofDesk part : Step κ α).Overlooks φ old := by
  intro ctx s
  rw [outcome_ofDesk, outcome_ofDesk, h s]

/-- A part that overlooks the folder keeps it. -/
theorem folder_of_overlooks {ctx ctx' : κ} {s s' : Session} {a : α}
    (h : ∀ f, part.Overlooks (fun _ => f) []) (hy : part.Yields ctx s a ctx' s') :
    s'.folder = s.folder := by
  have hout := h s.folder ctx s
  have hsame : s.aside (fun _ => s.folder) [] = s := by rw [Session.aside, List.append_nil]
  rw [hsame, show part.outcome ctx s = _ from hy] at hout
  exact congrArg (fun left => left.2.folder) hout

end Flow.Step
end BuildDesk
