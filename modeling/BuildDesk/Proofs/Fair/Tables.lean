/-
The four flows can be relied on.

Each of the flows is sound (`Flow.Sound`): the check finds nothing wrong with its table, its
handlers are fair, and every option that it offers leads on.  Where the actions of a menu are
performed by the one who runs the flow, this is so as long as the actions are fair and come to
one of the results that actions have (`Performs`).

* `Browse.sound`, `Prepare.sound`, `FollowUp.sound`, `Review.sound` — the four flows.

The table of the follow-up says that the user wishes for the same build once more, so its runs
are fair for events of any kind only; the other flows are fair for quiet events as well.
-/
import BuildDesk.Flow.Review
import BuildDesk.Proofs.Fair.Parts
import BuildDesk.Proofs.Flow.Fair
import BuildDesk.Proofs.Prepare.Turn

namespace BuildDesk.Flow

open Desk

variable {κ : Type} {E : Event → Prop}

/-! ### Prompts -/

/-- A text with the server fails for want of a name of the profile, and for nothing else. -/
theorem addressed_eq_error [Addressed κ] {text : Lang → κ → String} {lang : Lang} {ctx : κ}
    {f : Fault} : addressed text lang ctx = .error f ↔
      Settings.profileLabel (Addressed.settings ctx).profile = .error f := by
  have haddressed : addressed text lang ctx =
      ((do
        let target ← (Addressed.settings ctx).target
        pure (Phrase.say lang Dialog.targetSuffix
          [("message", .str (text lang ctx)), ("target", .str target)])).map .str) := rfl
  rw [haddressed, Settings.target]
  rcases Settings.profileLabel (Addressed.settings ctx).profile with g | label
  · constructor
    · exact fun h => congrArg Except.error (Except.error.inj h)
    · exact fun h => congrArg Except.error (Except.error.inj h)
  · exact ⟨nofun, nofun⟩

/-- The prompt can be shown just when its server can be named. -/
def Prompt.NamesServer [Addressed κ] (prompt : Prompt κ) : Prop :=
  prompt.isKnown = true ∧ ∀ lang ctx f, prompt.Broken lang ctx f ↔
    Settings.profileLabel (Addressed.settings ctx).profile = .error f

/-- All prompts of the flow name the server. -/
def Definition.NamesServer [Addressed κ] (d : Definition κ) : Prop :=
  ∀ entry ∈ d.states, ∀ prompt, entry.2.prompt = some prompt → prompt.NamesServer

section

variable [Addressed κ] {text : Lang → κ → String}

theorem ne_error_of_ok {α : Type} {e : Except Fault α} {f : Fault} (h : ∃ a, e = .ok a) :
    e ≠ .error f := by
  obtain ⟨a, rfl⟩ := h
  exact nofun

theorem namesServer_select {options : Projection κ (List Choice)}
    (hoptions : ∀ lang ctx, ∃ shown, options lang ctx = .ok shown) :
    (Prompt.select (addressed text) options).NamesServer := by
  refine ⟨rfl, fun lang ctx f => ⟨fun h => ?_, fun h => .inl (addressed_eq_error.mpr h)⟩⟩
  exact addressed_eq_error.mp (h.resolve_right (ne_error_of_ok (hoptions lang ctx)))

theorem namesServer_confirm {initial : Projection κ Json}
    (hinitial : ∀ lang ctx, ∃ shown, initial lang ctx = .ok shown) :
    (Prompt.confirm (addressed text) initial).NamesServer := by
  refine ⟨rfl, fun lang ctx f => ⟨fun h => ?_, fun h => .inl (addressed_eq_error.mpr h)⟩⟩
  exact addressed_eq_error.mp (h.resolve_right (ne_error_of_ok (hinitial lang ctx)))

theorem namesServer_text {placeholder initial : Projection κ Json}
    (hplaceholder : ∀ lang ctx, ∃ shown, placeholder lang ctx = .ok shown)
    (hinitial : ∀ lang ctx, ∃ shown, initial lang ctx = .ok shown) :
    (Prompt.text (addressed text) placeholder initial).NamesServer := by
  refine ⟨rfl, fun lang ctx f => ⟨fun h => ?_, fun h => .inl (addressed_eq_error.mpr h)⟩⟩
  exact addressed_eq_error.mp (h.resolve_right fun hother =>
    hother.elim (ne_error_of_ok (hplaceholder lang ctx)) (ne_error_of_ok (hinitial lang ctx)))

/-- That the server cannot be named is an ordinary fault. -/
theorem Definition.NamesServer.ordinary {d : Definition κ} (h : d.NamesServer) :
    d.IsOrdinary := by
  intro entry hentry prompt hprompt
  obtain ⟨hknown, hbroken⟩ := h entry hentry prompt hprompt
  exact ⟨hknown, fun lang ctx f hf =>
    Settings.ordinary_profileLabel _ f ((hbroken lang ctx f).mp hf)⟩

end

/-! ### Actions -/

/-- Every result of an action has a word that actions have. -/
theorem ActionResult.word_mem (result : ActionResult) : result.word ∈ ActionResult.words := by
  cases result <;> decide

/-- The part comes to the word of a result of actions. -/
def Performs (part : Desk Json) : Prop :=
  ∀ s v s', part.Yields s v s' → ∃ result : ActionResult, v = .str result.word

theorem performs_word (part : Desk ActionResult) :
    Performs (do return .str (← part).word) := by
  intro s v s' h
  obtain ⟨result, s₁, -, hv⟩ := yields_bind.mp h
  exact ⟨result, (yields_pure.mp hv).1⟩

/-- The part of a flow comes to the word of a result of actions. -/
def Step.Performs (part : Step κ Json) : Prop :=
  ∀ ctx s v ctx' s', part.Yields ctx s v ctx' s' → ∃ result : ActionResult, v = .str result.word

theorem Step.performs_word (part : Step κ ActionResult) :
    Step.Performs (do return .str (← part).word) := by
  intro ctx s v ctx' s' h
  obtain ⟨result, ctx₁, s₁, -, hv⟩ := Step.yields_bind.mp h
  exact ⟨result, (Step.yields_pure.mp hv).1⟩

theorem Step.performs_pure (result : ActionResult) :
    Step.Performs (pure (.str result.word) : Step κ Json) := by
  intro ctx s v ctx' s' h
  exact ⟨result, (Step.yields_pure.mp h).1⟩

theorem Step.performs_ofDesk {part : Desk Json} (h : Flow.Performs part) :
    Step.Performs (Step.ofDesk part : Step κ Json) := by
  intro ctx s v ctx' s' hy
  exact h s v s' (Step.yields_ofDesk.mp hy).1

/-- A handler that performs actions keeps to what it declares. -/
theorem isTrue_performing {part : Json → Step κ Json} (h : ∀ v, Step.Performs (part v)) :
    (Handler.ofStep (some ActionResult.words) part).IsTrue := by
  intro events hevents value ctx s event ctx' s' hyields
  obtain rfl : ActionResult.words = events := Option.some.inj hevents
  obtain ⟨result, rfl⟩ := h _ ctx s event ctx' s' (yields_ofStep.mp hyields)
  exact ⟨_, result.word_mem, rfl⟩

theorem isTrue_confirming : (Handler.confirming : Handler κ).IsTrue := by
  intro events hevents value ctx s event ctx' s' hyields
  obtain rfl := Option.some.inj hevents
  obtain ⟨hpart, -⟩ := Step.yields_ofDesk.mp hyields
  obtain ⟨said, hsaid, rfl⟩ := yields_map.mp hpart
  obtain ⟨rfl, -⟩ := yields_pure.mp hsaid
  refine ⟨_, ?_, rfl⟩
  unfold confirmed
  split
  · exact List.mem_cons_self
  · exact List.mem_cons_of_mem _ List.mem_cons_self

/-! ### Browsing -/

namespace Browse

variable {perform : String → Job → Desk Json}

theorem checked (perform : String → Job → Desk Json) :
    problems table (some (handlers perform)) = [] := by
  with_unfolding_all rfl

theorem shallow : table.IsShallow := by
  unfold Definition.IsShallow
  decide +kernel

theorem namesServer : table.NamesServer := by
  intro entry hentry prompt hprompt
  simp only [table, List.mem_cons, List.not_mem_nil, or_false] at hentry
  rcases hentry with rfl | rfl | rfl
  · obtain rfl := Option.some.inj hprompt
    exact namesServer_select fun _ _ => ⟨_, rfl⟩
  · obtain rfl := Option.some.inj hprompt
    exact namesServer_select fun _ _ => ⟨_, rfl⟩
  · cases hprompt

theorem ordinary : table.IsOrdinary := namesServer.ordinary

theorem leadsOn (hperform : ∀ action job, Performs (perform action job)) {name : String}
    {state : State Context} (hstate : table.state? name = some state) :
    LeadsOn table (handlers perform) name state := by
  refine leadsOn_of_checked (checked perform) (isTrue_handlers fun action job s v s' hv => ?_)
    hstate ?_
  · obtain ⟨result, rfl⟩ := hperform action job s v s' hv
    exact ⟨_, result.word_mem, rfl⟩
  · -- only the menu of actions declares no events
    have hmem := mem_states_of_state? hstate
    simp only [table, List.mem_cons, List.not_mem_nil, or_false, Prod.mk.injEq] at hmem
    rintro ⟨henter, -, hselect⟩
    rcases hmem with ⟨rfl, rfl⟩ | ⟨rfl, rfl⟩ | ⟨rfl, rfl⟩
    · rcases hselect with hnone | ⟨handler, h, hhandler, hfind, hemits⟩
      · cases hnone
      · obtain rfl := Option.some.inj hhandler
        obtain rfl := Option.some.inj hfind
        cases hemits
    · exact leadsOn_menu rfl rfl rfl rfl (fun _ _ => rfl) (by decide) (by decide)
    · cases henter

theorem isFair_handlers (hfair : ∀ action job, (perform action job).IsFair E) {name : String}
    {h : Handler Context} (hfind : (handlers perform).find? name = some h) (value : Option Json) :
    (h.run value).IsFair E := by
  refine isFair_of_forall (fun handler found hfound => ?_) hfind value
  simp only [handlers, List.mem_cons, List.not_mem_nil, or_false, Prod.mk.injEq] at hfound
  rcases hfound with ⟨rfl, rfl⟩ | ⟨rfl, rfl⟩ | ⟨rfl, rfl⟩
  · exact isFair_settling (fun _ _ => isFair_settled) isFair_ofChange
  · exact isFair_settling (fun _ _ => isFair_settled) isFair_ofChange
  · refine fun _ => Step.isFair_bind Step.isFair_context fun ctx => ?_
    split
    · split
      · exact Step.isFair_pure _
      · exact Step.isFair_ofDesk (hfair _ _)
    · exact Step.isFair_pure _

theorem sound [Event.Common E] (hperform : ∀ action job, Performs (perform action job))
    (hfair : ∀ action job, (perform action job).IsFair E) : Sound E table (handlers perform) where
  checked := checked perform
  shallow := shallow
  ordinary := ordinary
  leadsOn := leadsOn hperform
  handlers := isFair_handlers hfair
  steps name event target := Event.Common.quiet (by rintro ⟨h, -⟩; revert h; decide)

end Browse

/-! ### Reviewing -/

namespace Review

variable {perform : String → Desk Json}

theorem checked (perform : String → Desk Json) :
    problems table (some (handlers perform)) = [] := by
  with_unfolding_all rfl

theorem shallow : table.IsShallow := by
  unfold Definition.IsShallow
  decide +kernel

theorem namesServer : table.NamesServer := by
  intro entry hentry prompt hprompt
  simp only [table, List.mem_cons, List.not_mem_nil, or_false] at hentry
  rcases hentry with rfl | rfl | rfl
  · obtain rfl := Option.some.inj hprompt
    exact namesServer_select fun _ _ => ⟨_, rfl⟩
  · cases hprompt
  · obtain rfl := Option.some.inj hprompt
    exact namesServer_confirm fun _ _ => ⟨_, rfl⟩

theorem ordinary : table.IsOrdinary := namesServer.ordinary

theorem isTrue_handlers (hperform : ∀ action, Performs (perform action)) :
    (handlers perform).IsTrue := by
  refine isTrue_of_forall fun entry hentry => ?_
  simp only [handlers, List.mem_cons, List.not_mem_nil, or_false] at hentry
  rcases hentry with rfl | rfl | rfl
  · exact isTrue_of_undeclared rfl
  · refine isTrue_performing fun _ ctx s v ctx' s' hv => ?_
    unfold runAction at hv
    rw [Step.yields_context_bind] at hv
    split at hv
    · split at hv
      · exact Step.performs_pure .error _ _ _ _ _ hv
      · exact Step.performs_ofDesk (hperform _) _ _ _ _ _ hv
    · exact Step.performs_pure .error _ _ _ _ _ hv
  · exact isTrue_confirming

theorem leadsOn (hperform : ∀ action, Performs (perform action)) {name : String}
    {state : State Context} (hstate : table.state? name = some state) :
    LeadsOn table (handlers perform) name state := by
  refine leadsOn_of_checked (checked perform) (isTrue_handlers hperform) hstate ?_
  have hmem := mem_states_of_state? hstate
  simp only [table, List.mem_cons, List.not_mem_nil, or_false, Prod.mk.injEq] at hmem
  rintro ⟨henter, -, hselect⟩
  rcases hmem with ⟨rfl, rfl⟩ | ⟨rfl, rfl⟩ | ⟨rfl, rfl⟩
  · exact leadsOn_menu rfl rfl rfl rfl (fun _ _ => rfl) (by decide) (by decide)
  · cases henter
  · rcases hselect with hnone | ⟨handler, h, hhandler, hfind, hemits⟩
    · cases hnone
    · obtain rfl := Option.some.inj hhandler
      obtain rfl := Option.some.inj hfind
      cases hemits

theorem isFair_handlers (hfair : ∀ action, (perform action).IsFair E) {name : String}
    {h : Handler Context} (hfind : (handlers perform).find? name = some h) (value : Option Json) :
    (h.run value).IsFair E := by
  refine isFair_of_forall (fun handler found hfound => ?_) hfind value
  simp only [handlers, List.mem_cons, List.not_mem_nil, or_false, Prod.mk.injEq] at hfound
  rcases hfound with ⟨rfl, rfl⟩ | ⟨rfl, rfl⟩ | ⟨rfl, rfl⟩
  · exact isFair_settling (fun _ _ => isFair_settled) isFair_ofChange
  · refine fun _ => Step.isFair_bind Step.isFair_context fun ctx => ?_
    split
    · split
      · exact Step.isFair_pure _
      · exact Step.isFair_ofDesk (hfair _)
    · exact Step.isFair_pure _
  · exact isFair_confirming

theorem sound [Event.Common E] (hperform : ∀ action, Performs (perform action))
    (hfair : ∀ action, (perform action).IsFair E) : Sound E table (handlers perform) where
  checked := checked perform
  shallow := shallow
  ordinary := ordinary
  leadsOn := leadsOn hperform
  handlers := isFair_handlers hfair
  steps name event target := Event.Common.quiet (by rintro ⟨h, -⟩; revert h; decide)

end Review

/-! ### Following up -/

namespace FollowUp

variable {perform : String → Step Context Json}

theorem checked (perform : String → Step Context Json) :
    problems table (some (handlers perform)) = [] := by
  with_unfolding_all rfl

theorem shallow : table.IsShallow := by
  unfold Definition.IsShallow
  decide +kernel

theorem namesServer : table.NamesServer := by
  intro entry hentry prompt hprompt
  simp only [table, List.mem_cons, List.not_mem_nil, or_false] at hentry
  rcases hentry with rfl | rfl | rfl | rfl | rfl
  · obtain rfl := Option.some.inj hprompt
    exact namesServer_select fun _ _ => ⟨_, rfl⟩
  · cases hprompt
  · cases hprompt
  · cases hprompt
  · obtain rfl := Option.some.inj hprompt
    exact namesServer_confirm fun _ _ => ⟨_, rfl⟩

theorem ordinary : table.IsOrdinary := namesServer.ordinary

theorem isTrue_handlers (hperform : ∀ action, Step.Performs (perform action)) :
    (handlers perform).IsTrue := by
  refine isTrue_of_forall fun entry hentry => ?_
  simp only [handlers, List.mem_cons, List.not_mem_nil, or_false] at hentry
  rcases hentry with rfl | rfl | rfl | rfl | rfl
  · exact isTrue_of_undeclared rfl
  · refine isTrue_performing fun _ ctx s v ctx' s' hv => ?_
    unfold runAction at hv
    rw [Step.yields_context_bind] at hv
    split at hv
    · split at hv
      · exact Step.performs_pure .error _ _ _ _ _ hv
      · exact hperform _ _ _ _ _ _ hv
    · exact Step.performs_pure .error _ _ _ _ _ hv
  · refine isTrue_ofChange fun v ctx => ?_
    unfold afterMenu
    split <;> simp
  · refine isTrue_ofChange fun v ctx => ?_
    unfold afterRoot
    split <;> simp
  · exact isTrue_confirming

theorem leadsOn (hperform : ∀ action, Step.Performs (perform action)) {name : String}
    {state : State Context} (hstate : table.state? name = some state) :
    LeadsOn table (handlers perform) name state := by
  refine leadsOn_of_checked (checked perform) (isTrue_handlers hperform) hstate ?_
  have hmem := mem_states_of_state? hstate
  simp only [table, List.mem_cons, List.not_mem_nil, or_false, Prod.mk.injEq] at hmem
  rintro ⟨henter, -, hselect⟩
  rcases hmem with ⟨rfl, rfl⟩ | ⟨rfl, rfl⟩ | ⟨rfl, rfl⟩ | ⟨rfl, rfl⟩ | ⟨rfl, rfl⟩
  · exact leadsOn_menu rfl rfl rfl rfl (fun _ _ => rfl) (by decide) (by decide)
  · cases henter
  · cases henter
  · cases henter
  · rcases hselect with hnone | ⟨handler, h, hhandler, hfind, hemits⟩
    · cases hnone
    · obtain rfl := Option.some.inj hhandler
      obtain rfl := Option.some.inj hfind
      cases hemits

/-- A handler is fair where the chosen action is, if it performs one. -/
theorem fairAt_handlers {handler : String} {h : Handler Context} {ctx : Context} {s : Session}
    (hfind : (handlers perform).find? handler = some h) (hfair : handler = "build_post.run_action" →
      ∀ action, ctx.action = some action → (perform action).IsFair E) (value : Option Json) :
    Step.FairAt E (h.run value) ctx s := by
  have hfound : (handler, h) ∈ handlers perform := mem_of_lookup hfind
  simp only [handlers, List.mem_cons, List.not_mem_nil, or_false, Prod.mk.injEq] at hfound
  rcases hfound with ⟨rfl, rfl⟩ | ⟨rfl, rfl⟩ | ⟨rfl, rfl⟩ | ⟨rfl, rfl⟩ | ⟨rfl, rfl⟩
  · exact isFair_settling (fun _ _ => isFair_settled) isFair_ofChange value ctx s
  · refine Step.fairAt_bind (Step.isFair_context ctx s) fun c ctx₁ s₁ hctx => ?_
    obtain ⟨rfl, rfl, rfl⟩ := Step.yields_context.mp hctx
    split
    · rename_i action haction
      split
      · exact Step.isFair_pure _ _ _
      · exact hfair rfl action haction _ _
    · exact Step.isFair_pure _ _ _
  · exact isFair_ofChange value ctx s
  · exact isFair_ofChange value ctx s
  · exact isFair_confirming value ctx s

theorem sound (hperform : ∀ action, Step.Performs (perform action))
    (hfair : ∀ action, (perform action).IsFair Event.IsAny) :
    Sound Event.IsAny table (handlers perform) where
  checked := checked perform
  shallow := shallow
  ordinary := ordinary
  leadsOn := leadsOn hperform
  handlers hfind value _ _ := fairAt_handlers hfind (fun _ action _ => hfair action) value
  steps _ _ _ := trivial

end FollowUp

/-! ### Preparing a build -/

namespace Prepare

theorem checked : problems table (some handlers) = [] := by decide +kernel

theorem shallow : table.IsShallow := by
  unfold Definition.IsShallow
  decide +kernel

theorem namesServer : table.NamesServer := by
  intro entry hentry prompt hprompt
  have hstates : table.states = Spot.all.map fun p => (p.name, p.state) := rfl
  rw [hstates] at hentry
  obtain ⟨p, -, rfl⟩ := List.mem_map.mp hentry
  have hsearch : searchPrompt.NamesServer :=
    namesServer_text (fun _ _ => ⟨_, rfl⟩) fun _ _ => ⟨_, rfl⟩
  have hcandidate : candidatePrompt.NamesServer := namesServer_select fun _ _ => ⟨_, rfl⟩
  cases p with
  | entry | prepareBranch | branchRemoveApply | customCancel => cases hprompt
  | search way =>
    cases way with
    | recent | direct => exact Option.some.inj hprompt ▸ hsearch
  | results way => exact Option.some.inj hprompt ▸ hcandidate
  | recentMenu | branchMode | branchSelect | branchRemove =>
    obtain rfl := Option.some.inj hprompt
    exact namesServer_select fun _ _ => ⟨_, rfl⟩
  | branchEntry | customKey | customValue =>
    obtain rfl := Option.some.inj hprompt
    exact namesServer_text (fun _ _ => ⟨_, rfl⟩) fun _ _ => ⟨_, rfl⟩
  | customConfirm | customMore =>
    obtain rfl := Option.some.inj hprompt
    exact namesServer_confirm fun _ _ => ⟨_, rfl⟩

theorem ordinary : table.IsOrdinary := namesServer.ordinary

/-- Whatever is answered, a turn leads on. -/
theorem leadsOn {name : String} {state : State Context} (hstate : table.state? name = some state) :
    LeadsOn table handlers name state := by
  intro ctx s event ctx' s' hevent _
  obtain ⟨p, rfl⟩ := Spot.exists_of_state? hstate
  obtain rfl := Option.some.inj (p.state?_name.symm.trans hstate)
  obtain ⟨answer, ⟨word, goal, rfl, -, htarget⟩, -⟩ := visits_of_yields p hevent
  exact ⟨word, rfl, by rw [State.handles, htarget]; rfl⟩

theorem isFair_demanded [Event.Common E] {event : String} {missing hint : Dialog} {v : Json}
    {part : Desk String} (h : demanded event missing hint v = some part) : part.IsFair E := by
  unfold demanded at h
  split at h
  · cases h
  · obtain rfl := Option.some.inj h
    refine isFair_bind (isFair_say _ _) fun _ => isFair_bind (Console.isFair_printError _) ?_
    refine fun _ => isFair_bind (isFair_say _ _) fun _ => ?_
    exact isFair_bind (Console.isFair_printHint _) fun _ => isFair_pure _

theorem isFair_search [Event.Common E] (query : String) : (search query).IsFair E := by
  refine Step.isFair_bind Step.isFair_context fun ctx => ?_
  have hordinary := Search.ordinary_resolve query ctx.jobs
  rcases hfound : Search.resolve query ctx.jobs with f | jobs
  · have hf := hordinary f hfound
    cases f with
    | complaint c =>
      dsimp only
      split
      · exact Step.isFair_bind (Step.isFair_ofDesk (Console.isFair_printComplaint c))
          fun _ => Step.isFair_pure _
      · exact Step.isFair_throw hf
    | _ => exact Step.isFair_throw hf
  · exact Step.isFair_bind (Step.isFair_change _) fun _ => Step.isFair_pure _

theorem isFair_submitSearch [Event.Common E] (v : Json) : (submitSearch v).IsFair E := by
  refine Step.isFair_bind (Step.isFair_change _) fun _ => ?_
  split
  · rename_i part hpart
    exact Step.isFair_map _ (Step.isFair_ofDesk (isFair_demanded hpart))
  · exact isFair_search _

theorem isFair_prepareBranch (v : Json) : (prepareBranch v).IsFair E := by
  refine Step.isFair_bind Step.isFair_context fun ctx => ?_
  split
  · exact Step.isFair_bind (Step.isFair_change _) fun _ => Step.isFair_pure _
  · exact Step.isFair_pure _
  · exact Step.isFair_pure _
  · exact Step.isFair_bind (Step.isFair_change _) fun _ => Step.isFair_pure _
  · refine Step.isFair_bind (Step.isFair_ofDesk (Branches.isFair_offered _ _)) fun _ => ?_
    refine Step.isFair_bind (Step.isFair_change _) fun _ => ?_
    refine Step.isFair_bind (Step.isFair_ofDesk (Branches.isFair_history _ _)) fun _ => ?_
    exact Step.isFair_bind (Step.isFair_change _) fun _ => Step.isFair_pure _

theorem isFair_remove [Event.Common E] (v : Json) : (remove v).IsFair E := by
  refine Step.isFair_bind Step.isFair_context fun ctx => ?_
  refine Step.isFair_bind (Step.isFair_change _) fun _ => ?_
  have hdone : (pure (.str "remove:done") : Step Context Json).IsFair E := Step.isFair_pure _
  have hsaid : ∀ branch, (Desk.say Dialog.branchRemoved [("branch", .str branch)] >>=
      Console.printOk).IsFair E := fun branch =>
    isFair_bind (isFair_say _ _) Console.isFair_printOk
  dsimp only
  split
  · refine Step.isFair_bind (Step.isFair_ofDesk (Branches.isFair_forget _ _ _)) fun removed => ?_
    cases removed with
    | true =>
      refine Step.isFair_bind (Step.isFair_change _) fun _ => ?_
      exact Step.isFair_bind (Step.isFair_ofDesk (hsaid _)) fun _ => hdone
    | false => exact hdone
  · exact hdone

theorem isFair_submitKey [Event.Common E] (v : Json) : (submitKey v).IsFair E := by
  refine Step.isFair_bind Step.isFair_context fun ctx => ?_
  split
  · refine Step.isFair_bind (Step.isFair_ofDesk ?_) fun _ => Step.isFair_pure _
    refine isFair_bind (isFair_say _ _) fun _ => isFair_bind (Console.isFair_printError _) ?_
    exact fun _ => isFair_bind (isFair_say _ _) Console.isFair_printHint
  · exact Step.isFair_bind (Step.isFair_change _) fun _ => Step.isFair_pure _

theorem isFair_handlers [Event.Common E] {name : String} {h : Handler Context}
    (hfind : handlers.find? name = some h) (value : Option Json) : (h.run value).IsFair E := by
  have hsettled : ∀ {part : Desk String} {blank : Bool} {event : String},
      (if blank then some (pure event) else none) = some part → part.IsFair E := by
    intro part blank event hpart
    split at hpart
    · exact Option.some.inj hpart ▸ isFair_pure event
    · cases hpart
  refine isFair_of_forall (fun handler found hfound => ?_) hfind value
  simp only [handlers, List.mem_cons, List.not_mem_nil, or_false, Prod.mk.injEq] at hfound
  rcases hfound with ⟨rfl, rfl⟩ | ⟨rfl, rfl⟩ | ⟨rfl, rfl⟩ | ⟨rfl, rfl⟩ | ⟨rfl, rfl⟩ |
    ⟨rfl, rfl⟩ | ⟨rfl, rfl⟩ | ⟨rfl, rfl⟩ | ⟨rfl, rfl⟩ | ⟨rfl, rfl⟩ | ⟨rfl, rfl⟩ | ⟨rfl, rfl⟩ |
    ⟨rfl, rfl⟩
  · exact isFair_ofChange
  · exact isFair_settling (fun _ _ => isFair_settled) isFair_ofChange
  · exact fun _ => isFair_submitSearch _
  · exact isFair_ofChange
  · exact isFair_ofChange
  · exact fun value => isFair_prepareBranch (value.getD .null)
  · exact isFair_settling (fun _ _ hpart => hsettled hpart) isFair_ofChange
  · exact isFair_settling (fun _ _ hpart => hsettled hpart) isFair_ofChange
  · exact fun value => isFair_remove (value.getD .null)
  · exact isFair_settling (fun _ _ => isFair_demanded) isFair_ofChange
  · exact isFair_settling (fun _ _ => isFair_demanded) fun _ => isFair_submitKey _
  · exact isFair_ofChange
  · exact isFair_ofChange

theorem sound [Event.Common E] : Sound E table handlers where
  checked := checked
  shallow := shallow
  ordinary := ordinary
  leadsOn := leadsOn
  handlers := isFair_handlers
  steps name event target := Event.Common.quiet (by rintro ⟨h, -⟩; revert h; decide)

end Prepare
end BuildDesk.Flow
