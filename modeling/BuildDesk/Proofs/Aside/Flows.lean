/-
Flows do not look aside.

A run of a flow logs each of its steps, but where it goes is settled by its context, by the
answers and by its handlers.  When the handlers overlook what is put aside, so does the run
(`overlooks_runOn`):

* `overlooks_showPrompt`, `overlooks_eventAt`, `overlooks_follow` — the parts of a visit;
* `Registry.Overlooks` — all handlers overlook it;
* `Browse.overlooks_handlers`, `FollowUp.overlooks_handlers`, `Prepare.overlooks_handlers` — so
  they do in the flows, as long as the actions of their menus do.
-/
import BuildDesk.Flow.Browse
import BuildDesk.Flow.FollowUp
import BuildDesk.Flow.Prepare.Table
import BuildDesk.Proofs.Aside.Parts
import BuildDesk.Proofs.Flow.Reach

namespace BuildDesk.Flow

open Desk

variable {κ α : Type} {φ : Folder → Folder} {old : List Event}
variable {d : Definition κ} {r : Registry κ} {name : String}

/-! ### Runs -/

/-- All handlers overlook what is put aside, whatever they are called with. -/
def Registry.Overlooks (φ : Folder → Folder) (old : List Event) (r : Registry κ) : Prop :=
  ∀ {name h}, r.find? name = some h → ∀ value, (h.run value).Overlooks φ old

theorem Registry.overlooks_of_forall (h : ∀ handler found, (handler, found) ∈ r →
    ∀ value, (Handler.run found value).Overlooks φ old) : r.Overlooks φ old :=
  fun hfind value => h _ _ (mem_of_lookup hfind) value

theorem overlooks_blame (f : FlowFault) : (Step.blame f : Step κ α).Overlooks φ old :=
  Step.overlooks_throw _

theorem overlooks_project (p : Projection κ α) : (Step.project p).Overlooks φ old :=
  Step.overlooks_bind Step.overlooks_context fun _ =>
    Step.overlooks_bind (Step.overlooks_ofDesk overlooks_lang) fun _ =>
      Step.overlooks_ofDesk (overlooks_ofExcept _)

theorem overlooks_callHandler {handler : String}
    (hr : ∀ {h}, r.find? handler = some h → ∀ value, (h.run value).Overlooks φ old)
    (state : String) (value : Option Json) :
    (callHandler d r state handler value).Overlooks φ old := by
  unfold callHandler
  split
  · rename_i h hfind
    exact hr hfind value
  · exact overlooks_blame _

theorem overlooks_showPrompt (prompt : Prompt κ) :
    (showPrompt d name prompt).Overlooks φ old := by
  cases prompt with
  | select message options =>
    refine Step.overlooks_bind (overlooks_project _) fun _ => ?_
    refine Step.overlooks_bind (overlooks_project _) fun _ => ?_
    exact Step.overlooks_ofDesk (overlooks_ask _)
  | confirm message initial =>
    refine Step.overlooks_bind (overlooks_project _) fun _ => ?_
    refine Step.overlooks_bind (overlooks_project _) fun _ => ?_
    exact Step.overlooks_ofDesk (overlooks_ask _)
  | text message placeholder initial =>
    refine Step.overlooks_bind (overlooks_project _) fun _ => ?_
    refine Step.overlooks_bind (overlooks_project _) fun _ => ?_
    refine Step.overlooks_bind (overlooks_project _) fun _ => ?_
    exact Step.overlooks_ofDesk (overlooks_ask _)
  | odd kind message =>
    exact Step.overlooks_bind (overlooks_project _) fun _ => overlooks_blame _

theorem overlooks_defaultEvent (prompt : Prompt κ) (value : Json) :
    (defaultEvent d name prompt value).Overlooks φ old := by
  cases prompt with
  | select => exact Step.overlooks_pure _
  | confirm => exact Step.overlooks_pure _
  | text => exact overlooks_blame _
  | odd => exact overlooks_blame _

/-- A visit calls no handlers but those that the state names. -/
theorem overlooks_eventAt_of_named {state : State κ}
    (hr : ∀ {handler h}, state.onEnter = some handler ∨ state.onSelect = some handler →
      r.find? handler = some h → ∀ value, (h.run value).Overlooks φ old) :
    (eventAt d r name state).Overlooks φ old := by
  unfold eventAt
  split
  · rename_i henter
    exact overlooks_callHandler (hr (.inl henter)) _ _
  · refine Step.overlooks_bind (overlooks_showPrompt _) fun value => ?_
    split
    · exact Step.overlooks_pure _
    · split
      · rename_i hselect
        exact overlooks_callHandler (hr (.inr hselect)) _ _
      · exact overlooks_defaultEvent _ _
  · exact overlooks_blame _

theorem overlooks_eventAt (hr : r.Overlooks φ old) (state : State κ) :
    (eventAt d r name state).Overlooks φ old :=
  overlooks_eventAt_of_named fun _ hfind => hr hfind

theorem overlooks_follow (state : State κ) (event : Json) :
    (follow d name state event).Overlooks φ old := by
  unfold follow
  split
  · exact overlooks_blame _
  · split
    · exact overlooks_blame _
    · exact Step.overlooks_bind (Step.overlooks_ofDesk (overlooks_emit _)) fun _ =>
        Step.overlooks_pure _

theorem overlooks_visit (hr : r.Overlooks φ old) : (visit d r name).Overlooks φ old := by
  unfold visit
  split
  · exact overlooks_blame _
  · exact Step.overlooks_bind (overlooks_eventAt hr _) fun _ => overlooks_follow _ _

theorem overlooks_go (hr : r.Overlooks φ old) (visits : Nat) (name : String) :
    (d.go r visits name).Overlooks φ old := by
  induction visits generalizing name with
  | zero => exact Step.overlooks_throw _
  | succ visits ih =>
    refine Step.overlooks_bind (overlooks_visit hr) fun target => ?_
    split
    · exact Step.overlooks_pure _
    · exact ih target

/-- How many visits a run has is settled by the answers. -/
theorem overlooks_run (hr : r.Overlooks φ old) (start : Option String) :
    (d.run r start).Overlooks φ old := by
  refine Step.overlooks_bind (Step.overlooks_ofDesk (overlooks_ofExcept _)) fun _ ctx s => ?_
  have hgo : (d.runFor r (visitsFor s) start).Overlooks φ old :=
    Step.overlooks_bind (Step.overlooks_ofDesk (overlooks_emit _)) fun _ =>
      overlooks_go hr _ _
  exact hgo ctx s

theorem overlooks_runOn (hr : r.Overlooks φ old) (ctx : κ) (start : Option String) :
    (d.runOn r ctx start).Overlooks φ old := by
  intro s
  have hrun := overlooks_run (d := d) hr start ctx s
  have hout : ∀ t, (d.runOn r ctx start).outcome t =
      (((d.run r start).outcome ctx t).1.1.map fun ending =>
        (ending, ((d.run r start).outcome ctx t).1.2), ((d.run r start).outcome ctx t).2) :=
    fun _ => rfl
  rw [hout, hout, hrun]

/-! ### Handlers -/

theorem overlooks_ofChange {emits : Option (List String)} {change : Json → κ → String × κ}
    (value : Option Json) : ((Handler.ofChange emits change).run value).Overlooks φ old :=
  Step.overlooks_bind Step.overlooks_context fun _ =>
    Step.overlooks_bind (Step.overlooks_change _) fun _ => Step.overlooks_pure _

theorem overlooks_settling {atOnce : Json → Option (Desk String)} {h : Handler κ}
    (hatOnce : ∀ v part, atOnce v = some part → part.Overlooks φ old)
    (hother : ∀ value, (h.otherwise value).Overlooks φ old) (value : Option Json) :
    ((h.settling atOnce).run value).Overlooks φ old := by
  unfold Handler.run Handler.settling
  dsimp only
  split
  · rename_i part hpart
    exact Step.overlooks_ofDesk (overlooks_map _ (hatOnce _ _ hpart))
  · exact hother value

theorem overlooks_settled {events : List (String × String)} {v : Json} {part : Desk String}
    (h : settled events v = some part) : part.Overlooks φ old := by
  obtain ⟨event, -, rfl⟩ := Option.map_eq_some_iff.mp h
  exact overlooks_pure event

theorem overlooks_confirming (value : Option Json) :
    ((Handler.confirming : Handler κ).run value).Overlooks φ old :=
  Step.overlooks_ofDesk (overlooks_map _ (overlooks_pure _))

namespace Browse

theorem overlooks_handlers {perform : String → Job → Desk Json}
    (hperform : ∀ action job, (perform action job).Overlooks φ old) :
    (handlers perform).Overlooks φ old := by
  refine Registry.overlooks_of_forall fun handler found hfound => ?_
  simp only [handlers, List.mem_cons, List.not_mem_nil, or_false, Prod.mk.injEq] at hfound
  rcases hfound with ⟨rfl, rfl⟩ | ⟨rfl, rfl⟩ | ⟨rfl, rfl⟩
  · exact overlooks_settling (fun _ _ => overlooks_settled) overlooks_ofChange
  · exact overlooks_settling (fun _ _ => overlooks_settled) overlooks_ofChange
  · refine fun _ => Step.overlooks_bind Step.overlooks_context fun ctx => ?_
    split
    · split
      · exact Step.overlooks_pure _
      · exact Step.overlooks_ofDesk (hperform _ _)
    · exact Step.overlooks_pure _

end Browse

namespace FollowUp

theorem overlooks_handlers {perform : String → Step Context Json}
    (hperform : ∀ action, (perform action).Overlooks φ old) :
    (handlers perform).Overlooks φ old := by
  refine Registry.overlooks_of_forall fun handler found hfound => ?_
  simp only [handlers, List.mem_cons, List.not_mem_nil, or_false, Prod.mk.injEq] at hfound
  rcases hfound with ⟨rfl, rfl⟩ | ⟨rfl, rfl⟩ | ⟨rfl, rfl⟩ | ⟨rfl, rfl⟩ | ⟨rfl, rfl⟩
  · exact overlooks_settling (fun _ _ => overlooks_settled) overlooks_ofChange
  · refine fun _ => Step.overlooks_bind Step.overlooks_context fun ctx => ?_
    split
    · split
      · exact Step.overlooks_pure _
      · exact hperform _
    · exact Step.overlooks_pure _
  · exact overlooks_ofChange
  · exact overlooks_ofChange
  · exact overlooks_confirming

end FollowUp

namespace Prepare

theorem overlooks_demanded {event : String} {missing hint : Dialog} {v : Json}
    {part : Desk String} (h : demanded event missing hint v = some part) :
    part.Overlooks φ old := by
  unfold demanded at h
  split at h
  · cases h
  · obtain rfl := Option.some.inj h
    refine overlooks_bind (overlooks_say _ _) fun _ => ?_
    refine overlooks_bind (Console.overlooks_printError _) fun _ => ?_
    refine overlooks_bind (overlooks_say _ _) fun _ => ?_
    exact overlooks_bind (Console.overlooks_printHint _) fun _ => overlooks_pure _

theorem overlooks_search (query : String) : (search query).Overlooks φ old := by
  refine Step.overlooks_bind Step.overlooks_context fun ctx => ?_
  split
  · exact Step.overlooks_bind (Step.overlooks_change _) fun _ => Step.overlooks_pure _
  · split
    · exact Step.overlooks_bind (Step.overlooks_ofDesk (Console.overlooks_printComplaint _))
        fun _ => Step.overlooks_pure _
    · exact Step.overlooks_throw _
  · exact Step.overlooks_throw _

theorem overlooks_submitSearch (value : Json) : (submitSearch value).Overlooks φ old := by
  refine Step.overlooks_bind (Step.overlooks_change _) fun _ => ?_
  split
  · rename_i part hpart
    exact Step.overlooks_map _ (Step.overlooks_ofDesk (overlooks_demanded hpart))
  · exact overlooks_search _

theorem overlooks_prepareBranch (value : Json) : (prepareBranch value).Overlooks id old := by
  refine Step.overlooks_bind Step.overlooks_context fun ctx => ?_
  split
  · exact Step.overlooks_bind (Step.overlooks_change _) fun _ => Step.overlooks_pure _
  · exact Step.overlooks_pure _
  · exact Step.overlooks_pure _
  · exact Step.overlooks_bind (Step.overlooks_change _) fun _ => Step.overlooks_pure _
  · refine Step.overlooks_bind
      (Step.overlooks_ofDesk (Branches.onFolder_offered _ _).overlooks) fun _ => ?_
    refine Step.overlooks_bind (Step.overlooks_change _) fun _ => ?_
    refine Step.overlooks_bind
      (Step.overlooks_ofDesk (Branches.onFolder_history _ _).overlooks) fun _ => ?_
    exact Step.overlooks_bind (Step.overlooks_change _) fun _ => Step.overlooks_pure _

theorem overlooks_remove (value : Json) : (remove value).Overlooks id old := by
  refine Step.overlooks_bind Step.overlooks_context fun ctx => ?_
  refine Step.overlooks_bind (Step.overlooks_change _) fun _ => ?_
  have hdone : (pure (.str "remove:done") : Step Context Json).Overlooks id old :=
    Step.overlooks_pure _
  split
  · refine Step.overlooks_bind
      (Step.overlooks_ofDesk (Branches.onFolder_forget _ _ _).overlooks) fun removed => ?_
    split
    · refine Step.overlooks_bind (Step.overlooks_change _) fun _ => ?_
      refine Step.overlooks_bind (Step.overlooks_ofDesk ?_) fun _ => hdone
      exact overlooks_bind (overlooks_say _ _) fun _ => Console.overlooks_printOk _
    · exact hdone
  · exact hdone

theorem overlooks_submitKey (value : Json) : (submitKey value).Overlooks φ old := by
  refine Step.overlooks_bind Step.overlooks_context fun ctx => ?_
  split
  · refine Step.overlooks_bind (Step.overlooks_ofDesk ?_) fun _ => Step.overlooks_pure _
    refine overlooks_bind (overlooks_say _ _) fun _ => ?_
    refine overlooks_bind (Console.overlooks_printError _) fun _ => ?_
    exact overlooks_bind (overlooks_say _ _) fun _ => Console.overlooks_printHint _
  · exact Step.overlooks_bind (Step.overlooks_change _) fun _ => Step.overlooks_pure _

/-- The handlers that use the job file. -/
def fileHandlers : List String := ["build_pre.prepare_branch", "build_pre.remove_branch"]

/-- The handlers that use the job file overlook the log, and the others the folder as well. -/
theorem overlooks_handler {name : String} {h : Handler Context}
    (hfile : name ∈ fileHandlers → φ = id) (hfind : handlers.find? name = some h)
    (value : Option Json) : (h.run value).Overlooks φ old := by
  have hmem := mem_of_lookup hfind
  simp only [handlers, List.mem_cons, List.not_mem_nil, or_false, Prod.mk.injEq] at hmem
  rcases hmem with ⟨-, rfl⟩ | ⟨-, rfl⟩ | ⟨-, rfl⟩ | ⟨-, rfl⟩ | ⟨-, rfl⟩ | ⟨rfl, rfl⟩ | ⟨-, rfl⟩ |
    ⟨-, rfl⟩ | ⟨rfl, rfl⟩ | ⟨-, rfl⟩ | ⟨-, rfl⟩ | ⟨-, rfl⟩ | ⟨-, rfl⟩
  · exact overlooks_ofChange value
  · exact overlooks_settling (fun _ _ => overlooks_settled) overlooks_ofChange value
  · exact overlooks_submitSearch _
  · exact overlooks_ofChange value
  · exact overlooks_ofChange value
  · obtain rfl := hfile (by decide)
    exact overlooks_prepareBranch (value.getD .null)
  · refine overlooks_settling (fun v part hpart => ?_) overlooks_ofChange value
    unfold noBranch at hpart
    split at hpart
    · exact Option.some.inj hpart ▸ overlooks_pure _
    · cases hpart
  · refine overlooks_settling (fun v part hpart => ?_) overlooks_ofChange value
    unfold noRemoval at hpart
    split at hpart
    · exact Option.some.inj hpart ▸ overlooks_pure _
    · cases hpart
  · obtain rfl := hfile (by decide)
    exact overlooks_remove (value.getD .null)
  · exact overlooks_settling (fun _ _ => overlooks_demanded) overlooks_ofChange value
  · exact overlooks_settling (fun _ _ => overlooks_demanded) (fun _ => overlooks_submitKey _) value
  · exact overlooks_ofChange value
  · exact overlooks_ofChange value

theorem overlooks_handlers : handlers.Overlooks id old :=
  fun hfind value => overlooks_handler (fun _ => rfl) hfind value

end Prepare
end BuildDesk.Flow
