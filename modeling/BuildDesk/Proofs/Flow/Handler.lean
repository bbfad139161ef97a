/-
What handlers give.

Most handlers are put together from a function on the context, from answers that
settle the event at once, or from both.  This file says what such handlers give:

* `yields_ofChange` — the event and the context of the function;
* `yields_settling`, `run_settling` — an answer settles the event, or the handler goes on;
* `Desk.Gives` — the part prints, and then gives one event whatever the session is;
* `demanded_gives`, `settled_gives`, `leaving_gives` — what settles an event at once says it;
* `selected_inj` — the events of choices differ as the choices do.
-/
import BuildDesk.Flow.Prepare.Handlers
import BuildDesk.Proofs.Flow.Visit
import BuildDesk.Proofs.Frame
import BuildDesk.Proofs.Text.Trim

namespace BuildDesk

/-- Nothing but the log changes, and the event is always the same. -/
def Desk.Gives (part : Desk String) (event : String) : Prop :=
  ∀ s said s', part.Yields s said s' → said = event ∧ s.LogsOn s'

theorem Session.LogsOn.answers_eq {s s' : Session} (h : s.LogsOn s') : s'.answers = s.answers := by
  rw [h]

theorem Session.LogsOn.folder_eq {s s' : Session} (h : s.LogsOn s') : s'.folder = s.folder := by
  rw [h]

theorem Desk.gives_pure (event : String) : (pure event : Desk String).Gives event := by
  intro s said s' h
  obtain ⟨rfl, rfl⟩ := yields_pure.mp h
  exact ⟨rfl, .refl _⟩

theorem Desk.OnlyLogs.gives {α : Type} {part : Desk α} {next : α → Desk String} {event : String}
    (h : part.OnlyLogs) (hnext : ∀ a, (next a).Gives event) : (part >>= next).Gives event := by
  intro s said s' hsaid
  obtain ⟨a, s₁, hpart, hrest⟩ := yields_bind.mp hsaid
  obtain ⟨hevent, hlogs⟩ := hnext a s₁ said s' hrest
  exact ⟨hevent, (h s a s₁ hpart).trans hlogs⟩

namespace Flow

variable {κ : Type} {ctx ctx' : κ} {s s' : Session} {event : Json} {emits : Option (List String)}
variable {value : Option Json}

theorem yields_ofChange {change : Json → κ → String × κ} :
    ((Handler.ofChange emits change).run value).Yields ctx s event ctx' s' ↔
      event = .str (change (value.getD .null) ctx).1 ∧
        ctx' = (change (value.getD .null) ctx).2 ∧ s' = s := by
  show (Step.context >>= fun c => Step.change (fun _ => (change (value.getD .null) c).2) >>=
    fun _ => pure (Json.str (change (value.getD .null) c).1)).Yields ctx s event ctx' s' ↔ _
  rw [Step.yields_context_bind, Step.yields_change_bind, Step.yields_pure]

theorem yields_ofStep {part : Json → Step κ Json} :
    ((Handler.ofStep emits part).run value).Yields ctx s event ctx' s' ↔
      (part (value.getD .null)).Yields ctx s event ctx' s' := Iff.rfl

/-- An answer settles the event, or the handler goes on as if nothing could be settled. -/
theorem yields_settling {atOnce : Json → Option (Desk String)} {h : Handler κ}
    (hnone : h.atOnce = fun _ => none)
    (hyields : ((h.settling atOnce).run value).Yields ctx s event ctx' s') :
    (∃ part said, atOnce (value.getD .null) = some part ∧ part.Yields s said s' ∧
      event = .str said ∧ ctx' = ctx) ∨
    atOnce (value.getD .null) = none ∧ (h.run value).Yields ctx s event ctx' s' := by
  have hrun : h.run value = h.otherwise value := by rw [Handler.run, hnone]
  rw [hrun]
  unfold Handler.run Handler.settling at hyields
  dsimp only at hyields
  rcases hatOnce : atOnce (value.getD .null) with _ | part
  · rw [hatOnce] at hyields
    exact .inr ⟨rfl, hyields⟩
  · rw [hatOnce] at hyields
    obtain ⟨hpart, rfl⟩ := Step.yields_ofDesk.mp hyields
    obtain ⟨said, hsaid, rfl⟩ := Desk.yields_map.mp hpart
    exact .inl ⟨part, said, rfl, hsaid, rfl, rfl⟩

/-- An answer that settles nothing is left to the handler. -/
theorem run_settling {atOnce : Json → Option (Desk String)} {h : Handler κ}
    (hnone : h.atOnce = fun _ => none) (hgoes : atOnce (value.getD .null) = none) :
    (h.settling atOnce).run value = h.run value := by
  unfold Handler.run Handler.settling
  dsimp only
  rw [hgoes, hnone]

/-! ### Answers that settle the event -/

theorem settled_gives {events : List (String × String)} {v : Json} {part : Desk String}
    (h : settled events v = some part) :
    ∃ event, events.lookup v.text = some event ∧ part.Gives event := by
  unfold settled at h
  obtain ⟨event, hevent, rfl⟩ := Option.map_eq_some_iff.mp h
  exact ⟨event, hevent, Desk.gives_pure event⟩

/-- A menu is left by its last entry. -/
theorem leaving_gives {v : Json} {part : Desk String} (h : leaving v = some part) :
    v.text = done ∧ part.Gives done := by
  obtain ⟨event, hevent, hgives⟩ := settled_gives h
  rw [List.lookup_cons, List.lookup_nil] at hevent
  split at hevent
  · rename_i hdone
    obtain rfl := Option.some.inj hevent
    exact ⟨beq_iff_eq.mp hdone, hgives⟩
  · cases hevent

theorem demanded_gives {event : String} {missing hint : Dialog} {v : Json} {part : Desk String}
    (h : Prepare.demanded event missing hint v = some part) : typed v = "" ∧ part.Gives event := by
  unfold Prepare.demanded at h
  split at h
  · cases h
  · rename_i hblank
    obtain rfl := Option.some.inj h
    refine ⟨by simpa using hblank, ?_⟩
    refine (Desk.onlyLogs_say _ _).gives fun _ => ?_
    refine (Desk.onlyLogs_printError _).gives fun _ => ?_
    refine (Desk.onlyLogs_say _ _).gives fun _ => ?_
    exact (Desk.onlyLogs_printHint _).gives fun _ => Desk.gives_pure event

theorem typed_ne_of_demanded {event : String} {missing hint : Dialog} {v : Json}
    (h : Prepare.demanded event missing hint v = none) : typed v ≠ "" := by
  unfold Prepare.demanded at h
  split at h
  · rename_i hne
    simpa using hne
  · cases h

theorem trim_typed (v : Json) : Text.trim (typed v) = typed v := Text.trim_trim _

/-! ### Events of choices -/

theorem selected_inj {value value' : String} (h : selected value = selected value') :
    value = value' := (String.append_right_inj _).mp h

theorem head_selected (value : String) : (selected value).toList.head? = some 's' := by
  rw [selected, String.toList_append]
  rfl

end Flow
end BuildDesk
