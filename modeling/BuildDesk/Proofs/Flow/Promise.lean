/-
Handlers that keep to the events that they declare.

A handler may declare the events that it gives, and the check of a flow relies on it.
`Handler.IsTrue` is what it relies on: whatever the handler is called with, when it gives
an event, the event is declared.

* `isTrue_ofChange`, `isTrue_settling` — the ways in which handlers are put together keep to
  it when their parts do;
* `Browse.isTrue_handlers` — the handlers of the flow that browses jobs keep to it.
-/
import BuildDesk.Flow.Browse
import BuildDesk.Proofs.Flow.Handler

namespace BuildDesk.Flow

variable {κ : Type} {r : Registry κ}

/-- A handler that declares events gives no others. -/
def Handler.IsTrue (h : Handler κ) : Prop :=
  ∀ events, h.emits = some events → ∀ value ctx s event ctx' s',
    (h.run value).Yields ctx s event ctx' s' → ∃ word ∈ events, event = .str word

/-- All handlers keep to the events that they declare. -/
def Registry.IsTrue (r : Registry κ) : Prop := ∀ name h, r.find? name = some h → h.IsTrue

theorem isTrue_of_forall (h : ∀ entry ∈ r, entry.2.IsTrue) : r.IsTrue := by
  intro name found hfind
  exact h (name, found) (mem_of_lookup hfind)

theorem isTrue_of_undeclared {h : Handler κ} (hnone : h.emits = none) : h.IsTrue := by
  intro events hevents
  exact absurd (hnone.symm.trans hevents) nofun

theorem isTrue_ofChange {events : List String} {change : Json → κ → String × κ}
    (h : ∀ v ctx, (change v ctx).1 ∈ events) :
    (Handler.ofChange (some events) change).IsTrue := by
  intro events' hevents value ctx s event ctx' s' hyields
  obtain rfl : events = events' := Option.some.inj hevents
  obtain ⟨rfl, -, -⟩ := yields_ofChange.mp hyields
  exact ⟨_, h _ _, rfl⟩

theorem isTrue_settling {atOnce : Json → Option (Desk String)} {h : Handler κ}
    (hnone : h.atOnce = fun _ => none) (htrue : h.IsTrue)
    (hatOnce : ∀ events v part, h.emits = some events → atOnce v = some part →
      ∃ word ∈ events, part.Gives word) : (h.settling atOnce).IsTrue := by
  intro events hevents value ctx s event ctx' s' hyields
  rcases yields_settling hnone hyields with ⟨part, said, hpart, hsaid, rfl, -⟩ | ⟨-, hrun⟩
  · obtain ⟨word, hmem, hgives⟩ := hatOnce events _ part hevents hpart
    obtain ⟨rfl, -⟩ := hgives _ _ _ hsaid
    exact ⟨said, hmem, rfl⟩
  · exact htrue events hevents _ _ _ _ _ _ hrun

/-- The flow that browses jobs, when its actions have the results that actions have. -/
theorem Browse.isTrue_handlers {perform : String → Job → Desk Json}
    (hperform : ∀ action job s v s', (perform action job).Yields s v s' →
      ∃ word ∈ ActionResult.words, v = .str word) : (Browse.handlers perform).IsTrue := by
  refine isTrue_of_forall fun entry hentry => ?_
  simp only [Browse.handlers, List.mem_cons, List.not_mem_nil, or_false] at hentry
  have herror : ActionResult.error.word ∈ ActionResult.words := by decide
  rcases hentry with rfl | rfl | rfl
  · refine isTrue_settling rfl (isTrue_ofChange fun v ctx => ?_) ?_
    · unfold Browse.selectJob
      split <;> simp
    · rintro events v part hevents hpart
      obtain rfl := Option.some.inj hevents
      obtain ⟨word, hword, hgives⟩ := settled_gives hpart
      refine ⟨word, ?_, hgives⟩
      have hmem : (v.text, word) ∈ [(searchAgain, "select:search_again"), (leave, "select:exit")] :=
        mem_of_lookup hword
      simp only [List.mem_cons, Prod.mk.injEq, List.not_mem_nil, or_false] at hmem
      rcases hmem with ⟨-, rfl⟩ | ⟨-, rfl⟩ <;> simp
  · exact isTrue_of_undeclared rfl
  · intro events hevents value ctx s event ctx' s' hyields
    obtain rfl : ActionResult.words = events := Option.some.inj hevents
    have hrun : (Browse.runAction perform).Yields ctx s event ctx' s' := hyields
    unfold Browse.runAction at hrun
    rw [Step.yields_context_bind] at hrun
    split at hrun
    · split at hrun
      · exact ⟨_, herror, (Step.yields_pure.mp hrun).1⟩
      · exact hperform _ _ _ _ _ (Step.yields_ofDesk.mp hrun).1
    · exact ⟨_, herror, (Step.yields_pure.mp hrun).1⟩

end BuildDesk.Flow
