/-
Flows carry over from one language to another.

The texts of prompts are put in words, but the values of options and what is preset are not, and a
prompt that cannot be shown in one language cannot be shown in any.  So where a run of a flow goes
has nothing to do with its language, as long as its handlers carry over (`carries_runOn`):

* `Speaks`, `Prompt.Translates`, `Definition.Translates` — prompts that differ in words only;
* `carries_showPrompt`, `carries_eventAt`, `carries_follow` — the parts of a visit;
* `Registry.Carries` — all handlers carry over;
* `Browse.translates`, `Browse.carries_handlers`, … — the four flows.
-/
import BuildDesk.Flow.Browse
import BuildDesk.Flow.FollowUp
import BuildDesk.Flow.Prepare.Table
import BuildDesk.Flow.Review
import BuildDesk.Proofs.Flow.Reach
import BuildDesk.Proofs.Language.Parts
import BuildDesk.Proofs.Prepare.Turn

namespace BuildDesk.Flow

open Desk

variable {κ α : Type} {P : List Moment → Prop}
variable {d : Definition κ} {r : Registry κ} {name : String}

/-! ### Prompts -/

/-- What the part of a prompt comes to in one language is related to what it comes to in
another. -/
def Speaks (Q : α → α → Prop) (p : Projection κ α) : Prop :=
  ∀ lang lang' ctx, Related Q (p lang ctx) (p lang' ctx)

/-- The options have the same values. -/
def SameValues (options options' : List Choice) : Prop :=
  options.map Prod.fst = options'.map Prod.fst

/-- Nothing but the words of a prompt depends on the language. -/
inductive Prompt.Translates : Prompt κ → Prop
  | select {message options} (hmessage : Speaks (fun _ _ => True) message)
      (hoptions : Speaks SameValues options) : Translates (.select message options)
  | confirm {message initial} (hmessage : Speaks (fun _ _ => True) message)
      (hinitial : Speaks Eq initial) : Translates (.confirm message initial)
  | text {message placeholder initial} (hmessage : Speaks (fun _ _ => True) message)
      (hplaceholder : Speaks (fun _ _ => True) placeholder)
      (hinitial : Speaks Eq initial) : Translates (.text message placeholder initial)

/-- So it is with all prompts of the flow. -/
def Definition.Translates (d : Definition κ) : Prop :=
  ∀ entry ∈ d.states, ∀ prompt, entry.2.prompt = some prompt → prompt.Translates

section

theorem speaks_fixed (v : Json) : Speaks Eq (fixed v : Projection κ Json) :=
  fun _ _ _ => .ok rfl

theorem speaks_hint (d : Dialog) :
    Speaks (fun _ _ => True) (hint d : Projection κ Json) := fun _ _ _ => .ok trivial

theorem speaks_menu (entries : List (String × Dialog)) :
    Speaks SameValues (menu entries : Projection κ (List Choice)) := by
  refine fun lang lang' ctx => .ok ?_
  simp [SameValues, choice]

/-- The server can be named in every language, or in none. -/
theorem speaks_addressed [Addressed κ] (text : Lang → κ → String) :
    Speaks (fun _ _ => True) (addressed text) := by
  intro lang lang' ctx
  have hnamed : ∀ lang, addressed text lang ctx =
      (Addressed.settings ctx).target.map fun target => .str (Phrase.say lang Dialog.targetSuffix
        [("message", .str (text lang ctx)), ("target", .str target)]) := by
    intro lang
    rw [addressed, Settings.addressed]
    cases (Addressed.settings ctx).target <;> rfl
  rw [hnamed, hnamed]
  cases (Addressed.settings ctx).target with
  | error f => exact .error rfl
  | ok target => exact .ok trivial

end

/-! ### Runs -/

/-- All handlers carry over, whatever they are called with. -/
def Registry.Carries (P : List Moment → Prop) (r : Registry κ) : Prop :=
  ∀ {name h}, r.find? name = some h → ∀ value, (h.run value).Carries P

theorem Registry.carries_of_forall (h : ∀ handler found, (handler, found) ∈ r →
    ∀ value, (Handler.run found value).Carries P) : r.Carries P :=
  fun hfind value => h _ _ (mem_of_lookup hfind) value

section
variable [Moment.Simple P]

theorem carries_blame (f : FlowFault) : (Step.blame f : Step κ α).Carries P :=
  Step.carries_throw _

theorem echoes_project {Q : α → α → Prop} {p : Projection κ α} (h : Speaks Q p) :
    Step.Echoes P Q (Step.project p) (Step.project p) := by
  refine Step.echoes_bind Step.carries_context fun ctx _ hctx => ?_
  subst hctx
  exact Step.echoes_bind (Step.echoes_ofDesk echoes_lang) fun lang lang' _ =>
    Step.echoes_ofDesk (echoes_ofExcept (h lang lang' ctx))

theorem carries_callHandler {handler : String}
    (hr : ∀ {h}, r.find? handler = some h → ∀ value, (h.run value).Carries P)
    (state : String) (value : Option Json) : (callHandler d r state handler value).Carries P := by
  unfold callHandler
  split
  · rename_i h hfind
    exact hr hfind value
  · exact carries_blame _

theorem carries_showPrompt {prompt : Prompt κ} (h : prompt.Translates)
    (hP : ∀ {prompt : Event} {answer}, prompt.isPrompt = true → P [.asked prompt answer]) :
    (showPrompt d name prompt).Carries P := by
  cases h with
  | select hmessage hoptions =>
    refine Step.echoes_bind (echoes_project hmessage) fun _ _ _ => ?_
    refine Step.echoes_bind (echoes_project hoptions) fun options options' hvalues => ?_
    refine Step.echoes_ofDesk (echoes_ask rfl ?_ fun _ => hP rfl)
    have hmuted := congrArg (List.map fun v : Json => (v, Json.null)) hvalues
    rw [List.map_map, List.map_map] at hmuted
    exact congrArg (Event.select .null) hmuted
  | confirm hmessage hinitial =>
    refine Step.echoes_bind (echoes_project hmessage) fun _ _ _ => ?_
    refine Step.echoes_bind (echoes_project hinitial) fun initial _ hsame => ?_
    exact Step.echoes_ofDesk (echoes_ask rfl (congrArg (Event.confirm .null) hsame) fun _ => hP rfl)
  | text hmessage hplaceholder hinitial =>
    refine Step.echoes_bind (echoes_project hmessage) fun _ _ _ => ?_
    refine Step.echoes_bind (echoes_project hplaceholder) fun _ _ _ => ?_
    refine Step.echoes_bind (echoes_project hinitial) fun initial _ hsame => ?_
    exact Step.echoes_ofDesk
      (echoes_ask rfl (congrArg (Event.text .null .null) hsame) fun _ => hP rfl)

theorem carries_defaultEvent (prompt : Prompt κ) (value : Json) :
    (defaultEvent d name prompt value).Carries P := by
  cases prompt with
  | select => exact Step.carries_pure _
  | confirm => exact Step.carries_pure _
  | text => exact carries_blame _
  | odd => exact carries_blame _

theorem carries_follow (state : State κ) (event : Json) :
    (follow d name state event).Carries P := by
  unfold follow
  split
  · exact carries_blame _
  · split
    · exact carries_blame _
    · exact Step.carries_bind (Step.carries_ofDesk (carries_emit rfl)) fun _ => Step.carries_pure _

variable (hd : d.Translates) (hr : r.Carries P)
  (hP : ∀ {prompt : Event} {answer}, prompt.isPrompt = true → P [.asked prompt answer])
include hd hr hP

theorem carries_visit : (visit d r name).Carries P := by
  unfold visit
  split
  · exact carries_blame _
  · rename_i state hstate
    refine Step.carries_bind ?_ fun _ => carries_follow _ _
    unfold eventAt
    split
    · exact carries_callHandler hr _ _
    · rename_i prompt _ hprompt
      refine Step.carries_bind
        (carries_showPrompt (hd _ (mem_states_of_state? hstate) _ hprompt) hP) fun value => ?_
      split
      · exact Step.carries_pure _
      · split
        · exact carries_callHandler hr _ _
        · exact carries_defaultEvent _ _
    · exact carries_blame _

theorem carries_go (visits : Nat) (name : String) : (d.go r visits name).Carries P := by
  induction visits generalizing name with
  | zero => exact Step.carries_throw _
  | succ visits ih =>
    refine Step.carries_bind (carries_visit hd hr hP) fun target => ?_
    split
    · exact Step.carries_pure _
    · exact ih target

/-- How many visits a run has is settled by the answers. -/
theorem carries_run (start : Option String) : (d.run r start).Carries P := by
  refine Step.carries_bind (Step.carries_ofDesk (carries_ofExcept _)) fun _ => ?_
  refine Step.carries_session_bind (fun s => ?_) fun s t hst => ?_
  · exact Step.carries_bind (Step.carries_ofDesk (carries_emit rfl)) fun _ =>
      carries_go hd hr hP _ _
  · have hanswers := Session.same Session.answers (fun _ => rfl) hst
    rw [visitsFor, visitsFor, hanswers]

theorem carries_runOn (ctx : κ) (start : Option String) : (d.runOn r ctx start).Carries P := by
  intro s t hst
  obtain ⟨⟨hruns, hresults, hsessions⟩, hctx⟩ := carries_run hd hr hP start ctx s t hst
  have hout : ∀ u, (d.runOn r ctx start).outcome u =
      (((d.run r start).outcome ctx u).1.1.map fun ending =>
        (ending, ((d.run r start).outcome ctx u).1.2), ((d.run r start).outcome ctx u).2) :=
    fun _ => rfl
  rw [hout, hout, hctx]
  refine ⟨hruns, ?_, hsessions⟩
  generalize ((d.run r start).outcome ctx s).1.1 = left at hresults
  generalize ((d.run r start).outcome ctx t).1.1 = right at hresults
  cases hresults with
  | ok hsame => exact .ok (by rw [hsame])
  | error hfault => exact .error hfault

end

/-! ### Handlers -/

section
variable [Moment.Simple P]

theorem carries_ofChange {emits : Option (List String)} {change : Json → κ → String × κ}
    (value : Option Json) : ((Handler.ofChange emits change).run value).Carries P :=
  Step.carries_bind Step.carries_context fun _ =>
    Step.carries_bind (Step.carries_change _) fun _ => Step.carries_pure _

theorem carries_settling {atOnce : Json → Option (Desk String)} {h : Handler κ}
    (hatOnce : ∀ v part, atOnce v = some part → part.Carries P)
    (hother : ∀ value, (h.otherwise value).Carries P) (value : Option Json) :
    ((h.settling atOnce).run value).Carries P := by
  unfold Handler.run Handler.settling
  dsimp only
  split
  · rename_i part hpart
    exact Step.carries_ofDesk (carries_map _ (hatOnce _ _ hpart))
  · exact hother value

theorem carries_settled {events : List (String × String)} {v : Json} {part : Desk String}
    (h : settled events v = some part) : part.Carries P := by
  obtain ⟨event, -, rfl⟩ := Option.map_eq_some_iff.mp h
  exact carries_pure event

theorem carries_confirming (value : Option Json) :
    ((Handler.confirming : Handler κ).run value).Carries P :=
  Step.carries_ofDesk (carries_map _ (carries_pure _))

end

/-! ### The flows -/

namespace Browse

theorem translates : table.Translates := by
  intro entry hentry prompt hprompt
  simp only [table, List.mem_cons, List.not_mem_nil, or_false] at hentry
  rcases hentry with rfl | rfl | rfl
  · obtain rfl := Option.some.inj hprompt
    refine .select (speaks_addressed _) fun lang lang' ctx => .ok ?_
    simp [SameValues, choice]
  · obtain rfl := Option.some.inj hprompt
    exact .select (speaks_addressed _) (speaks_menu _)
  · cases hprompt

theorem carries_handlers [Moment.Simple P] {perform : String → Job → Desk Json}
    (hperform : ∀ action job, (perform action job).Carries P) : (handlers perform).Carries P := by
  refine Registry.carries_of_forall fun handler found hfound => ?_
  simp only [handlers, List.mem_cons, List.not_mem_nil, or_false, Prod.mk.injEq] at hfound
  rcases hfound with ⟨rfl, rfl⟩ | ⟨rfl, rfl⟩ | ⟨rfl, rfl⟩
  · exact carries_settling (fun _ _ => carries_settled) carries_ofChange
  · exact carries_settling (fun _ _ => carries_settled) carries_ofChange
  · refine fun _ => Step.carries_bind Step.carries_context fun ctx => ?_
    split
    · split
      · exact Step.carries_pure _
      · exact Step.carries_ofDesk (hperform _ _)
    · exact Step.carries_pure _

end Browse

namespace Review

theorem translates : table.Translates := by
  intro entry hentry prompt hprompt
  simp only [table, List.mem_cons, List.not_mem_nil, or_false] at hentry
  rcases hentry with rfl | rfl | rfl
  · obtain rfl := Option.some.inj hprompt
    exact .select (speaks_addressed _) (speaks_menu _)
  · cases hprompt
  · obtain rfl := Option.some.inj hprompt
    exact .confirm (speaks_addressed _) (speaks_fixed _)

theorem carries_handlers [Moment.Simple P] {perform : String → Desk Json}
    (hperform : ∀ action, (perform action).Carries P) : (handlers perform).Carries P := by
  refine Registry.carries_of_forall fun handler found hfound => ?_
  simp only [handlers, List.mem_cons, List.not_mem_nil, or_false, Prod.mk.injEq] at hfound
  rcases hfound with ⟨rfl, rfl⟩ | ⟨rfl, rfl⟩ | ⟨rfl, rfl⟩
  · exact carries_settling (fun _ _ => carries_settled) carries_ofChange
  · refine fun _ => Step.carries_bind Step.carries_context fun ctx => ?_
    split
    · split
      · exact Step.carries_pure _
      · exact Step.carries_ofDesk (hperform _)
    · exact Step.carries_pure _
  · exact carries_confirming

end Review

namespace FollowUp

theorem translates : table.Translates := by
  intro entry hentry prompt hprompt
  simp only [table, List.mem_cons, List.not_mem_nil, or_false] at hentry
  rcases hentry with rfl | rfl | rfl | rfl | rfl
  · obtain rfl := Option.some.inj hprompt
    exact .select (speaks_addressed _) (speaks_menu _)
  · cases hprompt
  · cases hprompt
  · cases hprompt
  · obtain rfl := Option.some.inj hprompt
    exact .confirm (speaks_addressed _) (speaks_fixed _)

theorem carries_handlers [Moment.Simple P] {perform : String → Step Context Json}
    (hperform : ∀ action, (perform action).Carries P) : (handlers perform).Carries P := by
  refine Registry.carries_of_forall fun handler found hfound => ?_
  simp only [handlers, List.mem_cons, List.not_mem_nil, or_false, Prod.mk.injEq] at hfound
  rcases hfound with ⟨rfl, rfl⟩ | ⟨rfl, rfl⟩ | ⟨rfl, rfl⟩ | ⟨rfl, rfl⟩ | ⟨rfl, rfl⟩
  · exact carries_settling (fun _ _ => carries_settled) carries_ofChange
  · refine fun _ => Step.carries_bind Step.carries_context fun ctx => ?_
    split
    · split
      · exact Step.carries_pure _
      · exact hperform _
    · exact Step.carries_pure _
  · exact carries_ofChange
  · exact carries_ofChange
  · exact carries_confirming

end FollowUp

namespace Prepare

theorem translates : table.Translates := by
  intro entry hentry prompt hprompt
  have hstates : table.states = Spot.all.map fun p => (p.name, p.state) := rfl
  rw [hstates] at hentry
  obtain ⟨p, -, rfl⟩ := List.mem_map.mp hentry
  have hsearch : searchPrompt.Translates :=
    .text (speaks_addressed _) (speaks_hint _) fun _ _ _ => .ok rfl
  have hcandidate : candidatePrompt.Translates :=
    .select (speaks_addressed _) fun _ _ _ => .ok rfl
  cases p with
  | entry | prepareBranch | branchRemoveApply | customCancel => cases hprompt
  | search way =>
    cases way with
    | recent | direct => exact Option.some.inj hprompt ▸ hsearch
  | results way => exact Option.some.inj hprompt ▸ hcandidate
  | recentMenu =>
    obtain rfl := Option.some.inj hprompt
    refine .select (speaks_addressed _) fun lang lang' ctx => .ok ?_
    simp [SameValues, choice]
  | branchMode =>
    obtain rfl := Option.some.inj hprompt
    exact .select (speaks_addressed _) (speaks_menu _)
  | branchSelect =>
    obtain rfl := Option.some.inj hprompt
    refine .select (speaks_addressed _) fun lang lang' ctx => .ok ?_
    unfold SameValues
    cases ctx.removable.isEmpty <;> simp [choice]
  | branchRemove =>
    obtain rfl := Option.some.inj hprompt
    exact .select (speaks_addressed _) fun _ _ _ => .ok rfl
  | branchEntry | customKey =>
    obtain rfl := Option.some.inj hprompt
    exact .text (speaks_addressed _) (speaks_hint _) (speaks_fixed _)
  | customValue =>
    obtain rfl := Option.some.inj hprompt
    exact .text (speaks_addressed _) (fun _ _ _ => .ok trivial) (speaks_fixed _)
  | customConfirm | customMore =>
    obtain rfl := Option.some.inj hprompt
    exact .confirm (speaks_addressed _) (speaks_fixed _)

theorem carries_demanded [Moment.Simple P] {event : String} {missing hint : Dialog} {v : Json}
    {part : Desk String} (h : demanded event missing hint v = some part) : part.Carries P := by
  unfold demanded at h
  split at h
  · cases h
  · obtain rfl := Option.some.inj h
    refine carries_say_bind fun _ _ => echoes_bind (Console.echoes_printError _ _) fun _ _ _ => ?_
    exact carries_say_bind fun _ _ => echoes_bind (Console.echoes_printHint _ _) fun _ _ _ =>
      carries_pure _

section
variable [Moment.Simple P]

theorem carries_search (query : String) : (search query).Carries P := by
  refine Step.carries_bind Step.carries_context fun ctx => ?_
  split
  · exact Step.carries_bind (Step.carries_change _) fun _ => Step.carries_pure _
  · split
    · exact Step.carries_bind (Step.carries_ofDesk (Console.carries_printComplaint _))
        fun _ => Step.carries_pure _
    · exact Step.carries_throw _
  · exact Step.carries_throw _

theorem carries_submitSearch (value : Json) : (submitSearch value).Carries P := by
  refine Step.carries_bind (Step.carries_change _) fun _ => ?_
  split
  · rename_i part hpart
    exact Step.carries_map _ (Step.carries_ofDesk (carries_demanded hpart))
  · exact carries_search _

theorem carries_prepareBranch (value : Json) : (prepareBranch value).Carries P := by
  refine Step.carries_bind Step.carries_context fun ctx => ?_
  split
  · exact Step.carries_bind (Step.carries_change _) fun _ => Step.carries_pure _
  · exact Step.carries_pure _
  · exact Step.carries_pure _
  · exact Step.carries_bind (Step.carries_change _) fun _ => Step.carries_pure _
  · refine Step.carries_bind
      (Step.carries_ofDesk (carries_onFolder (Branches.onFolder_offered _ _))) fun _ => ?_
    refine Step.carries_bind (Step.carries_change _) fun _ => ?_
    refine Step.carries_bind
      (Step.carries_ofDesk (carries_onFolder (Branches.onFolder_history _ _))) fun _ => ?_
    exact Step.carries_bind (Step.carries_change _) fun _ => Step.carries_pure _

theorem carries_remove (value : Json) : (remove value).Carries P := by
  refine Step.carries_bind Step.carries_context fun ctx => ?_
  refine Step.carries_bind (Step.carries_change _) fun _ => ?_
  have hdone : (pure (.str "remove:done") : Step Context Json).Carries P := Step.carries_pure _
  split
  · refine Step.carries_bind
      (Step.carries_ofDesk (carries_onFolder (Branches.onFolder_forget _ _ _))) fun removed => ?_
    split
    · refine Step.carries_bind (Step.carries_change _) fun _ => ?_
      refine Step.carries_bind (Step.carries_ofDesk ?_) fun _ => hdone
      exact carries_say_bind fun _ _ => Console.echoes_printOk _ _
    · exact hdone
  · exact hdone

theorem carries_submitKey (value : Json) : (submitKey value).Carries P := by
  refine Step.carries_bind Step.carries_context fun ctx => ?_
  split
  · refine Step.carries_bind (Step.carries_ofDesk ?_) fun _ => Step.carries_pure _
    refine carries_say_bind fun _ _ => echoes_bind (Console.echoes_printError _ _) fun _ _ _ => ?_
    exact carries_say_bind fun _ _ => Console.echoes_printHint _ _
  · exact Step.carries_bind (Step.carries_change _) fun _ => Step.carries_pure _

theorem carries_handlers : handlers.Carries P := by
  have hsettled : ∀ {part : Desk String} {blank : Bool} {event : String},
      (if blank then some (pure event) else none) = some part → part.Carries P := by
    intro part blank event hpart
    split at hpart
    · exact Option.some.inj hpart ▸ carries_pure event
    · cases hpart
  intro handler found hfind value
  have hfound := mem_of_lookup hfind
  simp only [handlers, List.mem_cons, List.not_mem_nil, or_false, Prod.mk.injEq] at hfound
  rcases hfound with ⟨rfl, rfl⟩ | ⟨rfl, rfl⟩ | ⟨rfl, rfl⟩ | ⟨rfl, rfl⟩ | ⟨rfl, rfl⟩ |
    ⟨rfl, rfl⟩ | ⟨rfl, rfl⟩ | ⟨rfl, rfl⟩ | ⟨rfl, rfl⟩ | ⟨rfl, rfl⟩ | ⟨rfl, rfl⟩ | ⟨rfl, rfl⟩ |
    ⟨rfl, rfl⟩
  · exact carries_ofChange value
  · exact carries_settling (fun _ _ => carries_settled) carries_ofChange value
  · exact carries_submitSearch _
  · exact carries_ofChange value
  · exact carries_ofChange value
  · exact carries_prepareBranch (value.getD .null)
  · exact carries_settling (fun _ _ hpart => hsettled hpart) carries_ofChange value
  · exact carries_settling (fun _ _ hpart => hsettled hpart) carries_ofChange value
  · exact carries_remove (value.getD .null)
  · exact carries_settling (fun _ _ => carries_demanded) carries_ofChange value
  · exact carries_settling (fun _ _ => carries_demanded) (fun _ => carries_submitKey _) value
  · exact carries_ofChange value
  · exact carries_ofChange value

end

end Prepare
end BuildDesk.Flow
